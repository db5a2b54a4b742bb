import NetLang.Syntax.Pretty
import NetLang.Syntax.Rewrite

/-!
# Locations are not shown

The dump of a program is the one of the program without its locations.
-/

namespace NetLang

theorem stripping_locations : stripping.locations = true :=
  rfl

theorem stripping_parallel : ¬ stripping.parallel = true :=
  nofun

namespace Pretty

variable [Formatting]

omit [Formatting] in
theorem suffix_stripping (separator : String)
    (annotated : Option TypeAnnotation) :
    suffix separator (stripping.optional annotated) =
      suffix separator annotated := by
  cases annotated <;> rfl

theorem pattern_stripping : ∀ tested : Pattern,
    pattern (stripping.pattern tested) = pattern tested
  | .located _ inner => by
      rw [Rewriting.pattern, if_pos stripping_locations, pattern]
      exact pattern_stripping inner
  | .integer _ | .string _ | .boolean _ | .null | .wildcard => rfl

mutual

theorem expression_stripping : ∀ node : Expr,
    expression (stripping.expr node) = expression node
  | .located _ inner => by
      rw [Rewriting.expr, if_pos stripping_locations, expression]
      exact expression_stripping inner
  | .construct _ fields | .object fields => by
      simp only [Rewriting.expr, expression, fieldValues_stripping fields]
  | .connection _ address _ => by
      simp only [Rewriting.expr, expression, expression_stripping address]
  | .send connection data destination => by
      simp only [Rewriting.expr, expression, expression_stripping connection,
        expression_stripping data, optional_stripping _ destination]
  | .request _ url config => by
      simp only [Rewriting.expr, expression, expression_stripping url,
        optional_stripping _ config]
  | .array values => by
      simp only [Rewriting.expr, expression, expressions_stripping values]
  | .receive operand | .unary _ operand | .property operand _ => by
      simp only [Rewriting.expr, expression, expression_stripping operand]
  | .binary left _ right | .assignment left right | .index left right => by
      simp only [Rewriting.expr, expression, expression_stripping left,
        expression_stripping right]
  | .call callee arguments => by
      simp only [Rewriting.expr, expression, expression_stripping callee,
        expressions_stripping arguments]
  | .integer _ | .float _ | .string _ | .boolean _ | .null | .duration _
  | .identifier _ => by rw [Rewriting.expr]

theorem expressions_stripping : ∀ values : List Expr,
    expressions (stripping.exprList values) = expressions values
  | [] => by rw [Rewriting.exprList]
  | value :: rest => by
      simp only [Rewriting.exprList, expressions, expression_stripping value,
        expressions_stripping rest]

theorem fieldValues_stripping : ∀ fields : List (String × Expr),
    fieldValues (stripping.fieldList fields) = fieldValues fields
  | [] => by rw [Rewriting.fieldList]
  | (_, value) :: rest => by
      simp only [Rewriting.fieldList, fieldValues, expression_stripping value,
        fieldValues_stripping rest]

theorem optional_stripping (label : String) : ∀ value : Option Expr,
    optional label (stripping.exprOption value) = optional label value
  | none => by rw [Rewriting.exprOption]
  | some value => by
      simp only [Rewriting.exprOption, optional, expression_stripping value]

end

theorem returned_stripping (value : Option Expr) :
    returned (stripping.exprOption value) = returned value := by
  cases value with
  | none => rw [Rewriting.exprOption]
  | some value =>
      simp only [Rewriting.exprOption, returned, expression_stripping]

mutual

theorem statement_stripping : ∀ node : Stmt,
    statement (stripping.stmt node) = statement node
  | .located _ inner => by
      rw [Rewriting.stmt, if_pos stripping_locations, statement]
      exact statement_stripping inner
  | .type name fields => by
      simp only [Rewriting.stmt, statement, List.map_map]
      rfl
  | .let name annotated value => by
      simp only [Rewriting.stmt, statement, expression_stripping,
        suffix_stripping]
  | .expression value => by
      simp only [Rewriting.stmt, statement, expression_stripping]
  | .block list => by
      simp only [Rewriting.stmt, statement, statements_stripping list]
  | .function name parameters returnAnnotated body => by
      have shown : (parameters.map stripping.parameter).map parameter =
          parameters.map parameter := by
        rw [List.map_map]
        congr 1
        funext given
        exact congrArg (fun annotated => Tree.leaf (given.name ++ annotated))
          (suffix_stripping ": " given.annotated)
      simp only [Rewriting.stmt, statement, shown, suffix_stripping,
        statement_stripping body]
  | .return value => by
      simp only [Rewriting.stmt, statement, returned_stripping]
  | .if test thenBranch elseBranch => by
      simp only [Rewriting.stmt, statement, expression_stripping,
        statement_stripping thenBranch, otherwise_stripping elseBranch]
  | .while test body => by
      simp only [Rewriting.stmt, statement, expression_stripping,
        statement_stripping body]
  | .for _ iterable body => by
      simp only [Rewriting.stmt, statement, expression_stripping,
        statement_stripping body]
  | .parallel _ iterable body => by
      rw [Rewriting.stmt, if_neg stripping_parallel]
      simp only [statement, expression_stripping, statement_stripping body]
  | .match value arms => by
      simp only [Rewriting.stmt, statement, expression_stripping,
        matchArms_stripping arms]
  | .break | .continue => by rw [Rewriting.stmt]

theorem statements_stripping : ∀ list : List Stmt,
    statements (stripping.stmtList list) = statements list
  | [] => by rw [Rewriting.stmtList]
  | node :: rest => by
      simp only [Rewriting.stmtList, statements, statement_stripping node,
        statements_stripping rest]

theorem otherwise_stripping : ∀ branch : Option Stmt,
    otherwise (stripping.stmtOption branch) = otherwise branch
  | none => by rw [Rewriting.stmtOption]
  | some branch => by
      simp only [Rewriting.stmtOption, otherwise, statement_stripping branch]

theorem matchArms_stripping : ∀ arms : List (Pattern × Stmt),
    matchArms (stripping.armList arms) = matchArms arms
  | [] => by rw [Rewriting.armList]
  | (tested, body) :: rest => by
      simp only [Rewriting.armList, matchArms, pattern_stripping tested,
        statement_stripping body, matchArms_stripping rest]

end

end Pretty

theorem Program.pretty_strip [Formatting] (program : Program) :
    program.strip.pretty = program.pretty :=
  congrArg (fun trees => "Program\n" ++ Tree.writeAll "" trees)
    (Pretty.statements_stripping program.statements)

end NetLang
