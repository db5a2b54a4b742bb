import NetLang.Syntax.Pretty

/-!
# Legible programs

The dump leaves out locations.  It tells programs apart that have none and
whose names do not have the characters that set the parts of a label apart.
-/

namespace NetLang

/-- A name has none of the characters that separate it in a label. -/
def PlainName (text : String) : Prop :=
  ∀ c ∈ ['\n', ' ', ':', '-'], c ∉ text.toList

theorem PlainName.line {text : String} (plain : PlainName text) :
    '\n' ∉ text.toList :=
  plain '\n' (by decide)

structure TypeAnnotation.Legible (annotated : TypeAnnotation) : Prop where
  name : PlainName annotated.name
  span : annotated.span = none

structure TypeField.Legible (field : TypeField) : Prop where
  name : PlainName field.name
  annotated : field.annotated.Legible

structure Parameter.Legible (parameter : Parameter) : Prop where
  name : PlainName parameter.name
  annotated : ∀ annotated ∈ parameter.annotated, annotated.Legible

/-- An expression without locations, as literals and names are written. -/
inductive Expr.Legible : Expr → Prop where
  | construct {name : String} {fields : List (String × Expr)} :
      PlainName name → (∀ field ∈ fields, Legible field.2) →
      Legible (.construct name fields)
  | connection {transport : Transport} {address : Expr}
      {protocol : Option String} :
      Legible address → (∀ name ∈ protocol, PlainName name) →
      Legible (.connection transport address protocol)
  | send {connection data : Expr} {destination : Option Expr} :
      Legible connection → Legible data →
      (∀ address ∈ destination, Legible address) →
      Legible (.send connection data destination)
  | receive {connection : Expr} :
      Legible connection → Legible (.receive connection)
  | request {method : HttpMethod} {url : Expr} {config : Option Expr} :
      Legible url → (∀ object ∈ config, Legible object) →
      Legible (.request method url config)
  | integer (value : Int64) : Legible (.integer value)
  | float {value : Binary64} :
      value.isFinite = true → value.negative = false →
      Legible (.float value)
  | string (value : String) : Legible (.string value)
  | boolean (value : Bool) : Legible (.boolean value)
  | null : Legible .null
  | duration (milliseconds : UInt64) : Legible (.duration milliseconds)
  | identifier {name : String} : PlainName name → Legible (.identifier name)
  | array {values : List Expr} :
      (∀ value ∈ values, Legible value) → Legible (.array values)
  | object {fields : List (String × Expr)} :
      (∀ field ∈ fields, Legible field.2) → Legible (.object fields)
  | unary {operator : UnaryOp} {operand : Expr} :
      Legible operand → Legible (.unary operator operand)
  | binary {left : Expr} {operator : BinaryOp} {right : Expr} :
      Legible left → Legible right → Legible (.binary left operator right)
  | assignment {target value : Expr} :
      Legible target → Legible value → Legible (.assignment target value)
  | call {callee : Expr} {arguments : List Expr} :
      Legible callee → (∀ value ∈ arguments, Legible value) →
      Legible (.call callee arguments)
  | property {object : Expr} {name : String} :
      Legible object → PlainName name → Legible (.property object name)
  | index {object subscript : Expr} :
      Legible object → Legible subscript → Legible (.index object subscript)

def Pattern.Legible (pattern : Pattern) : Prop :=
  ∀ span inner, pattern ≠ .located span inner

inductive Stmt.Legible : Stmt → Prop where
  | type {name : String} {fields : List TypeField} :
      PlainName name → (∀ field ∈ fields, field.Legible) →
      Legible (.type name fields)
  | «break» : Legible .break
  | «continue» : Legible .continue
  | parallel {variableName : String} {iterable : Expr} {body : Stmt} :
      PlainName variableName → iterable.Legible → Legible body →
      Legible (.parallel variableName iterable body)
  | «match» {value : Expr} {arms : List (Pattern × Stmt)} :
      value.Legible → (∀ arm ∈ arms, arm.1.Legible) →
      (∀ arm ∈ arms, Legible arm.2) → Legible (.match value arms)
  | «let» {name : String} {annotated : Option TypeAnnotation} {value : Expr} :
      PlainName name → (∀ annotation ∈ annotated, annotation.Legible) →
      value.Legible → Legible (.let name annotated value)
  | expression {value : Expr} : value.Legible → Legible (.expression value)
  | block {list : List Stmt} :
      (∀ node ∈ list, Legible node) → Legible (.block list)
  | «if» {test : Expr} {thenBranch : Stmt} {elseBranch : Option Stmt} :
      test.Legible → Legible thenBranch →
      (∀ branch ∈ elseBranch, Legible branch) →
      Legible (.if test thenBranch elseBranch)
  | «while» {test : Expr} {body : Stmt} :
      test.Legible → Legible body → Legible (.while test body)
  | «for» {variableName : String} {iterable : Expr} {body : Stmt} :
      PlainName variableName → iterable.Legible → Legible body →
      Legible (.for variableName iterable body)
  | function {name : String} {parameters : List Parameter}
      {returnAnnotated : Option TypeAnnotation} {body : Stmt} :
      PlainName name → (∀ parameter ∈ parameters, parameter.Legible) →
      (∀ annotation ∈ returnAnnotated, annotation.Legible) →
      Legible body → Legible (.function name parameters returnAnnotated body)
  | «return» {value : Option Expr} :
      (∀ result ∈ value, result.Legible) → Legible (.return value)

/-- What a dump relies on: texts of strings are quoted, take one line and
tell the string; texts of finite numbers without a sign tell the number. -/
structure Formatting.Faithful [Formatting] : Prop where
  debug_injective : Function.Injective Formatting.debugString
  debug_line : ∀ text, '\n' ∉ (Formatting.debugString text).toList
  debug_quoted : ∀ text,
    (Formatting.debugString text).toList.head? = some '"'
  float_injective : Set.InjOn Formatting.displayFloat
    {value | value.isFinite = true ∧ value.negative = false}
  float_line : ∀ value : Binary64, value.isFinite = true →
    '\n' ∉ (Formatting.displayFloat value).toList

end NetLang
