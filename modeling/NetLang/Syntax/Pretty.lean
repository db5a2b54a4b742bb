import NetLang.Runtime.Value

/-!
# The dump of a program

A program is shown as a tree of labels, and the tree as text, where what
stands before a label tells how deep its node is.
-/

namespace NetLang

/-- A small presentation tree keeps indentation separate from the syntax. -/
inductive Tree where
  | node (label : String) (children : List Tree)

namespace Tree

def leaf (label : String) : Tree :=
  .node label []

def label : Tree → String
  | .node label _ => label

def children : Tree → List Tree
  | .node _ children => children

/-- What stands right before the label of a node. -/
def branch (last : Bool) : String :=
  if last then "└── " else "├── "

/-- What is added before the nodes below a node. -/
def bar (last : Bool) : String :=
  if last then "    " else "│   "

mutual

def write (indent : String) (last : Bool) : Tree → String
  | .node label children =>
      indent ++ branch last ++ label ++ "\n" ++
        writeAll (indent ++ bar last) children

/-- The nodes with a common parent; the last one is marked. -/
def writeAll (indent : String) : List Tree → String
  | [] => ""
  | child :: rest => write indent rest.isEmpty child ++ writeAll indent rest

end

end Tree

def Transport.shown : Transport → String
  | .tcp => "TCP"
  | .udp => "UDP"

def HttpMethod.shown : HttpMethod → String
  | .get => "GET"
  | .post => "POST"
  | .put => "PUT"
  | .patch => "PATCH"
  | .delete => "DELETE"
  | .head => "HEAD"

def UnaryOp.shown : UnaryOp → String
  | .not => "!"
  | .negate => "-"

def BinaryOp.shown : BinaryOp → String
  | .add => "+"
  | .subtract => "-"
  | .multiply => "*"
  | .divide => "/"
  | .remainder => "%"
  | .less => "<"
  | .lessEqual => "<="
  | .greater => ">"
  | .greaterEqual => ">="
  | .equal => "=="
  | .notEqual => "!="
  | .and => "&&"
  | .or => "||"

namespace Pretty

/-- A title, and what it is the title of. -/
def titled (title detail : String) : String :=
  title ++ " " ++ detail

/-- An annotation after a name, if there is one. -/
def suffix (separator : String) : Option TypeAnnotation → String
  | none => ""
  | some annotated => separator ++ annotated.name

def typeField (field : TypeField) : Tree :=
  .leaf (field.name ++ ": " ++ field.annotated.name)

def parameter (parameter : Parameter) : Tree :=
  .leaf (parameter.name ++ suffix ": " parameter.annotated)

def protocol : Option String → List Tree
  | none => []
  | some name => [.leaf (titled "Protocol" name)]

variable [Formatting]

mutual

def expression : Expr → Tree
  | .construct name fields =>
      .node (titled "Construct" name) (fieldValues fields)
  | .located _ inner => expression inner
  | .connection transport address protocolName =>
      .node (titled "Connection" transport.shown)
        (.node "Address" [expression address] :: protocol protocolName)
  | .send connection data destination =>
      .node "Send" (.node "Connection" [expression connection] ::
        .node "Data" [expression data] ::
        optional "Destination" destination)
  | .receive connection => .node "Receive" [expression connection]
  | .request method url config =>
      .node (titled "Request" method.shown)
        (.node "URL" [expression url] :: optional "Config" config)
  | .integer value => .leaf (titled "Integer" (toString value.toInt))
  | .float value => .leaf (titled "Float" (Formatting.displayFloat value))
  | .string value => .leaf (titled "String" (Formatting.debugString value))
  | .boolean value => .leaf (titled "Boolean" (toString value))
  | .null => .leaf "Null"
  | .duration milliseconds =>
      .leaf (titled "Duration" (toString milliseconds.toNat ++ "ms"))
  | .identifier name => .leaf (titled "Identifier" name)
  | .array values => .node "Array" (expressions values)
  | .object fields => .node "Object" (fieldValues fields)
  | .unary operator operand =>
      .node (titled "Unary" operator.shown) [expression operand]
  | .binary left operator right =>
      .node (titled "Binary" operator.shown)
        [expression left, expression right]
  | .assignment target value =>
      .node "Assignment" [.node "Target" [expression target],
        .node "Value" [expression value]]
  | .call callee arguments =>
      .node "Call" [.node "Callee" [expression callee],
        .node "Arguments" (expressions arguments)]
  | .property object name => .node (titled "Property" name) [expression object]
  | .index object subscript =>
      .node "Index" [.node "Object" [expression object],
        .node "Subscript" [expression subscript]]

def expressions : List Expr → List Tree
  | [] => []
  | value :: rest => expression value :: expressions rest

/-- The fields of a constructor or an object. -/
def fieldValues : List (String × Expr) → List Tree
  | [] => []
  | (key, value) :: rest =>
      .node (titled "Field" (Formatting.debugString key))
        [expression value] :: fieldValues rest

/-- An optional part, under a label. -/
def optional (label : String) : Option Expr → List Tree
  | none => []
  | some value => [.node label [expression value]]

end

def pattern : Pattern → String
  | .located _ inner => pattern inner
  | .integer value => toString value.toInt
  | .string value => Formatting.debugString value
  | .boolean value => toString value
  | .null => "null"
  | .wildcard => "_"

def returned : Option Expr → List Tree
  | none => []
  | some value => [expression value]

mutual

def statement : Stmt → Tree
  | .type name fields => .node (titled "Type" name) (fields.map typeField)
  | .break => .leaf "Break"
  | .continue => .leaf "Continue"
  | .located _ inner => statement inner
  | .let name annotated value =>
      .node (titled "Let" (name ++ suffix ": " annotated)) [expression value]
  | .expression value => .node "Expression" [expression value]
  | .block list => .node "Block" (statements list)
  | .function name parameters returnAnnotated body =>
      .node (titled "Function" (name ++ suffix " -> " returnAnnotated))
        [.node "Parameters" (parameters.map parameter), statement body]
  | .return value => .node "Return" (returned value)
  | .if test thenBranch elseBranch =>
      .node "If" (.node "Condition" [expression test] ::
        .node "Then" [statement thenBranch] :: otherwise elseBranch)
  | .while test body =>
      .node "While" [.node "Condition" [expression test], statement body]
  | .for variableName iterable body =>
      .node (titled "For" variableName)
        [.node "Iterable" [expression iterable], statement body]
  | .parallel variableName iterable body =>
      .node (titled "Parallel" variableName)
        [.node "Iterable" [expression iterable], statement body]
  | .match value arms =>
      .node "Match" (.node "Value" [expression value] :: matchArms arms)

def statements : List Stmt → List Tree
  | [] => []
  | node :: rest => statement node :: statements rest

def otherwise : Option Stmt → List Tree
  | none => []
  | some branch => [.node "Else" [statement branch]]

def matchArms : List (Pattern × Stmt) → List Tree
  | [] => []
  | (tested, body) :: rest =>
      .node (titled "Arm" (pattern tested)) [statement body] ::
        matchArms rest

end

end Pretty

def Program.pretty [Formatting] (program : Program) : String :=
  "Program\n" ++ Tree.writeAll "" (Pretty.statements program.statements)

end NetLang
