import NetLang.Syntax.Ast

/-!
# Rewritings of programs

Three ways to simplify a program: to remove all locations, to remove the
annotations of variables, parameters and functions, and to turn parallel
statements into serial loops.
-/

namespace NetLang

structure Rewriting where
  locations : Bool
  annotations : Bool
  parallel : Bool
deriving DecidableEq, Repr

namespace Rewriting

variable (rewriting : Rewriting)

/-- An annotation that stays may lose its location. -/
def typeAnnotated (annotated : TypeAnnotation) : TypeAnnotation :=
  if rewriting.locations then ⟨annotated.name, none⟩ else annotated

def optional (annotated : Option TypeAnnotation) : Option TypeAnnotation :=
  if rewriting.annotations then none
  else annotated.map rewriting.typeAnnotated

def parameter (parameter : Parameter) : Parameter :=
  ⟨parameter.name, rewriting.optional parameter.annotated⟩

def field (field : TypeField) : TypeField :=
  ⟨field.name, rewriting.typeAnnotated field.annotated⟩

mutual

def expr : Expr → Expr
  | .located span inner =>
      if rewriting.locations then expr inner else .located span (expr inner)
  | .construct name fields => .construct name (fieldList fields)
  | .connection transport address protocol =>
      .connection transport (expr address) protocol
  | .send connection data destination =>
      .send (expr connection) (expr data) (exprOption destination)
  | .receive connection => .receive (expr connection)
  | .request method url config =>
      .request method (expr url) (exprOption config)
  | .integer value => .integer value
  | .float value => .float value
  | .string value => .string value
  | .boolean value => .boolean value
  | .null => .null
  | .duration value => .duration value
  | .identifier name => .identifier name
  | .array values => .array (exprList values)
  | .object fields => .object (fieldList fields)
  | .unary operator operand => .unary operator (expr operand)
  | .binary left op right => .binary (expr left) op (expr right)
  | .assignment target value => .assignment (expr target) (expr value)
  | .call callee arguments => .call (expr callee) (exprList arguments)
  | .property object name => .property (expr object) name
  | .index object index => .index (expr object) (expr index)

def exprOption : Option Expr → Option Expr
  | none => none
  | some value => some (expr value)

def exprList : List Expr → List Expr
  | [] => []
  | value :: rest => expr value :: exprList rest

def fieldList : List (String × Expr) → List (String × Expr)
  | [] => []
  | (key, value) :: rest => (key, expr value) :: fieldList rest

end

def pattern : Pattern → Pattern
  | .located span inner =>
      if rewriting.locations then pattern inner
      else .located span (pattern inner)
  | other => other

mutual

def stmt : Stmt → Stmt
  | .located span inner =>
      if rewriting.locations then stmt inner else .located span (stmt inner)
  | .type name fields => .type name (fields.map rewriting.field)
  | .break => .break
  | .continue => .continue
  | .parallel variableName iterable body =>
      if rewriting.parallel then
        .for variableName (rewriting.expr iterable) (stmt body)
      else .parallel variableName (rewriting.expr iterable) (stmt body)
  | .match value arms => .match (rewriting.expr value) (armList arms)
  | .let name annotated value =>
      .let name (rewriting.optional annotated) (rewriting.expr value)
  | .expression value => .expression (rewriting.expr value)
  | .block list => .block (stmtList list)
  | .if test thenBranch elseBranch =>
      .if (rewriting.expr test) (stmt thenBranch) (stmtOption elseBranch)
  | .while test body => .while (rewriting.expr test) (stmt body)
  | .for variableName iterable body =>
      .for variableName (rewriting.expr iterable) (stmt body)
  | .function name parameters returnAnnotated body =>
      .function name (parameters.map rewriting.parameter)
        (rewriting.optional returnAnnotated) (stmt body)
  | .return value => .return (rewriting.exprOption value)

def stmtOption : Option Stmt → Option Stmt
  | none => none
  | some node => some (stmt node)

def stmtList : List Stmt → List Stmt
  | [] => []
  | node :: rest => stmt node :: stmtList rest

def armList : List (Pattern × Stmt) → List (Pattern × Stmt)
  | [] => []
  | (pattern, body) :: rest =>
      (rewriting.pattern pattern, stmt body) :: armList rest

end

def program (program : Program) : Program :=
  ⟨rewriting.stmtList program.statements⟩

end Rewriting

/-- Remove every location. -/
def stripping : Rewriting :=
  ⟨true, false, false⟩

/-- Remove every location wrapper and the locations of annotations. -/
def Program.strip (program : Program) : Program :=
  Rewriting.program ⟨true, false, false⟩ program

/-- Drop every annotation of a `let`, a parameter or a result. -/
def Program.erase (program : Program) : Program :=
  Rewriting.program ⟨false, true, false⟩ program

/-- Replace every `parallel` by `for`. -/
def Program.serialize (program : Program) : Program :=
  Rewriting.program ⟨false, false, true⟩ program

namespace Rewriting

variable (rewriting : Rewriting)

theorem expr_unspanned : ∀ node : Expr,
    (rewriting.expr node).unspanned = rewriting.expr node.unspanned
  | .located span inner => by
      have unlocated := expr_unspanned inner
      by_cases dropped : rewriting.locations = true
      · simp [expr, Expr.unspanned, dropped, unlocated]
      · simp [expr, Expr.unspanned, dropped, unlocated]
  | .construct _ _ | .connection _ _ _ | .send _ _ _ | .receive _
  | .request _ _ _ | .integer _ | .float _ | .string _ | .boolean _ | .null
  | .duration _ | .identifier _ | .array _ | .object _ | .unary _ _
  | .binary _ _ _ | .assignment _ _ | .call _ _ | .property _ _
  | .index _ _ => by simp [expr, Expr.unspanned]

theorem pattern_unspanned : ∀ node : Pattern,
    (rewriting.pattern node).unspanned = node.unspanned
  | .located span inner => by
      have unlocated := pattern_unspanned inner
      by_cases dropped : rewriting.locations = true
      · simp [pattern, Pattern.unspanned, dropped, unlocated]
      · simp [pattern, Pattern.unspanned, dropped, unlocated]
  | .integer _ | .string _ | .boolean _ | .null | .wildcard => rfl

theorem stmt_unspanned : ∀ node : Stmt,
    (rewriting.stmt node).unspanned = rewriting.stmt node.unspanned
  | .located span inner => by
      have unlocated := stmt_unspanned inner
      by_cases dropped : rewriting.locations = true
      · simp [stmt, Stmt.unspanned, dropped, unlocated]
      · simp [stmt, Stmt.unspanned, dropped, unlocated]
  | .parallel _ _ _ => by
      by_cases serial : rewriting.parallel = true
      · simp [stmt, Stmt.unspanned, serial]
      · simp [stmt, Stmt.unspanned, serial]
  | .type _ _ | .break | .continue | .match _ _ | .let _ _ _
  | .expression _ | .block _ | .if _ _ _ | .while _ _ | .for _ _ _
  | .function _ _ _ _ | .return _ => by simp [stmt, Stmt.unspanned]

theorem stmtList_eq_map (list : List Stmt) :
    rewriting.stmtList list = list.map rewriting.stmt := by
  induction list with
  | nil => rfl
  | cons node rest induction => simp [stmtList, induction]

theorem exprList_eq_map (list : List Expr) :
    rewriting.exprList list = list.map rewriting.expr := by
  induction list with
  | nil => rfl
  | cons node rest induction => simp [exprList, induction]

end Rewriting

/-- The rewriting that keeps everything. -/
def untouched : Rewriting :=
  ⟨false, false, false⟩

namespace Rewriting

@[simp] theorem untouched_locations : untouched.locations = false :=
  rfl

@[simp] theorem untouched_parallel : untouched.parallel = false :=
  rfl

theorem typeAnnotated_untouched (annotated : TypeAnnotation) :
    untouched.typeAnnotated annotated = annotated :=
  rfl

theorem optional_untouched (annotated : Option TypeAnnotation) :
    untouched.optional annotated = annotated := by
  cases annotated with
  | none => rfl
  | some annotated => rfl

theorem parameters_untouched (parameters : List Parameter) :
    parameters.map untouched.parameter = parameters := by
  have same : untouched.parameter = id := by
    funext parameter
    simp [Rewriting.parameter, optional_untouched]
  rw [same, List.map_id]

theorem fields_untouched (fields : List TypeField) :
    fields.map untouched.field = fields := by
  have same : untouched.field = id := by
    funext field
    simp [Rewriting.field, typeAnnotated_untouched]
  rw [same, List.map_id]

mutual

theorem expr_untouched : ∀ node : Expr, untouched.expr node = node
  | .located span inner | .receive inner | .unary _ inner
  | .property inner _ | .connection _ inner _ => by
      simp [expr, expr_untouched inner]
  | .construct _ fields | .object fields => by
      simp [expr, fieldList_untouched fields]
  | .send connection data destination => by
      simp [expr, expr_untouched connection, expr_untouched data,
        exprOption_untouched destination]
  | .request _ url config => by
      simp [expr, expr_untouched url, exprOption_untouched config]
  | .array values => by simp [expr, exprList_untouched values]
  | .binary left _ right => by
      simp [expr, expr_untouched left, expr_untouched right]
  | .assignment left right | .index left right => by
      simp [expr, expr_untouched left, expr_untouched right]
  | .call callee arguments => by
      simp [expr, expr_untouched callee, exprList_untouched arguments]
  | .integer _ | .float _ | .string _ | .boolean _ | .null | .duration _
  | .identifier _ => rfl

theorem exprOption_untouched : ∀ node : Option Expr,
    untouched.exprOption node = node
  | none => rfl
  | some node => congrArg some (expr_untouched node)

theorem exprList_untouched : ∀ list : List Expr, untouched.exprList list = list
  | [] => rfl
  | node :: rest =>
      congrArg₂ List.cons (expr_untouched node) (exprList_untouched rest)

theorem fieldList_untouched : ∀ fields : List (String × Expr),
    untouched.fieldList fields = fields
  | [] => rfl
  | (key, value) :: rest =>
      congrArg₂ List.cons (congrArg (Prod.mk key) (expr_untouched value))
        (fieldList_untouched rest)

end

theorem pattern_untouched : ∀ node : Pattern, untouched.pattern node = node
  | .located span inner => by simp [pattern, pattern_untouched inner]
  | .integer _ | .string _ | .boolean _ | .null | .wildcard => rfl

mutual

theorem stmt_untouched : ∀ node : Stmt, untouched.stmt node = node
  | .located _ inner => by simp [stmt, stmt_untouched inner]
  | .type _ fields => by simp [stmt, fields_untouched]
  | .parallel _ iterable body | .for _ iterable body
  | .while iterable body => by
      simp [stmt, expr_untouched iterable, stmt_untouched body]
  | .match value arms => by
      simp [stmt, expr_untouched value, armList_untouched arms]
  | .let _ annotated value => by
      simp [stmt, optional_untouched, expr_untouched value]
  | .expression value => by simp [stmt, expr_untouched value]
  | .block list => by simp [stmt, stmtList_untouched list]
  | .if test thenBranch elseBranch => by
      simp [stmt, expr_untouched test, stmt_untouched thenBranch,
        stmtOption_untouched elseBranch]
  | .function _ parameters returnAnnotated body => by
      simp [stmt, parameters_untouched, optional_untouched, stmt_untouched body]
  | .return value => by simp [stmt, exprOption_untouched]
  | .break | .continue => rfl

theorem stmtOption_untouched : ∀ node : Option Stmt,
    untouched.stmtOption node = node
  | none => rfl
  | some node => congrArg some (stmt_untouched node)

theorem stmtList_untouched : ∀ list : List Stmt, untouched.stmtList list = list
  | [] => rfl
  | node :: rest =>
      congrArg₂ List.cons (stmt_untouched node) (stmtList_untouched rest)

theorem armList_untouched : ∀ arms : List (Pattern × Stmt),
    untouched.armList arms = arms
  | [] => rfl
  | (pattern, body) :: rest =>
      congrArg₂ List.cons
        (congrArg₂ Prod.mk (pattern_untouched pattern) (stmt_untouched body))
        (armList_untouched rest)

end

theorem program_untouched (program : Program) :
    untouched.program program = program := by
  obtain ⟨list⟩ := program
  exact congrArg Program.mk (stmtList_untouched list)

end Rewriting

end NetLang
