import NetLang.Syntax.Dump

/-!
# The lines of a dump

Every label of a legible program takes one line, so that the text of its tree
tells the tree and the tree tells the program.
-/

namespace NetLang

namespace Pretty

theorem line_append {front back : String} (line : '\n' ∉ front.toList)
    (line' : '\n' ∉ back.toList) : '\n' ∉ (front ++ back).toList := by
  simp [String.toList_append, line, line']

theorem line_titled {title detail : String} (line : '\n' ∉ title.toList)
    (line' : '\n' ∉ detail.toList) : '\n' ∉ (titled title detail).toList :=
  line_append (line_append line (by decide)) line'

theorem line_suffix {separator : String} (line : '\n' ∉ separator.toList)
    {annotated : Option TypeAnnotation}
    (legible : ∀ annotation ∈ annotated, annotation.Legible) :
    '\n' ∉ (suffix separator annotated).toList := by
  cases annotated with
  | none => exact (by decide : '\n' ∉ "".toList)
  | some annotated => exact line_append line (legible _ rfl).name.line

theorem line_int (value : Int) : '\n' ∉ (toString value).toList :=
  fun member => absurd (toString_int_char value '\n' member) (by decide)

theorem line_nat (value : Nat) : '\n' ∉ (toString value).toList :=
  fun member => absurd (toString_nat_char value '\n' member) (by decide)

theorem line_bool (value : Bool) : '\n' ∉ (toString value).toList := by
  cases value <;> decide

theorem plain_nil : ∀ tree ∈ ([] : List Tree), tree.Plain := by
  simp

theorem plain_cons {tree : Tree} {trees : List Tree} (first : tree.Plain)
    (later : ∀ tree ∈ trees, tree.Plain) :
    ∀ child ∈ tree :: trees, child.Plain :=
  List.forall_mem_cons.mpr ⟨first, later⟩

theorem plain_leaf {label : String} (line : '\n' ∉ label.toList) :
    (Tree.leaf label).Plain :=
  .node line plain_nil

/-- A part of a node under a label of its own. -/
theorem plain_part {label : String} {tree : Tree}
    (line : '\n' ∉ label.toList) (plain : tree.Plain) :
    (Tree.node label [tree]).Plain :=
  .node line (plain_cons plain plain_nil)

theorem typeField_plain {field : TypeField} (legible : field.Legible) :
    (typeField field).Plain :=
  plain_leaf (line_append (line_append legible.name.line (by decide))
    legible.annotated.name.line)

theorem parameter_plain {given : Parameter} (legible : given.Legible) :
    (parameter given).Plain :=
  plain_leaf (line_append legible.name.line
    (line_suffix (by decide) legible.annotated))

variable [Formatting]

mutual

theorem expression_plain (faithful : Formatting.Faithful) :
    ∀ node : Expr, node.Legible →
    (expression node).Plain
  | .located _ _, legible => nomatch legible
  | .construct _ fields, legible => by
      cases legible with
      | construct plain inner =>
          exact .node (line_titled (by decide) plain.line)
            (fieldValues_plain faithful fields inner)
  | .connection transport address protocolName, legible => by
      cases legible with
      | connection first name =>
          have named : ∀ tree ∈ protocol protocolName, tree.Plain := by
            cases protocolName with
            | none => exact plain_nil
            | some text =>
                exact plain_cons (plain_leaf
                  (line_titled (by decide) (name _ rfl).line)) plain_nil
          refine .node (line_titled (by decide) ?_)
            (plain_cons (plain_part (by decide)
              (expression_plain faithful address first)) named)
          cases transport <;> decide
  | .send connection data destination, legible => by
      cases legible with
      | send first second third =>
          exact .node (by decide) (plain_cons (plain_part (by decide)
            (expression_plain faithful connection first)) (plain_cons
            (plain_part (by decide) (expression_plain faithful data second))
            (optional_plain faithful (by decide) destination third)))
  | .receive connection, legible => by
      cases legible with
      | receive inner =>
          exact plain_part (by decide)
            (expression_plain faithful connection inner)
  | .request method url config, legible => by
      cases legible with
      | request first second =>
          refine .node (line_titled (by decide) ?_) (plain_cons
            (plain_part (by decide) (expression_plain faithful url first))
            (optional_plain faithful (by decide) config second))
          cases method <;> decide
  | .integer value, _ => plain_leaf (line_titled (by decide) (line_int _))
  | .float value, legible => by
      cases legible with
      | float finite positive =>
          exact plain_leaf (line_titled (by decide)
            (faithful.float_line value finite))
  | .string value, _ =>
      plain_leaf (line_titled (by decide) (faithful.debug_line value))
  | .boolean value, _ =>
      plain_leaf (line_titled (by decide) (line_bool value))
  | .null, _ => plain_leaf (by decide)
  | .duration milliseconds, _ =>
      plain_leaf (line_titled (by decide)
        (line_append (line_nat _) (by decide)))
  | .identifier name, legible => by
      cases legible with
      | identifier plain =>
          exact plain_leaf (line_titled (by decide) plain.line)
  | .array values, legible => by
      cases legible with
      | array inner =>
          exact .node (by decide) (expressions_plain faithful values inner)
  | .object fields, legible => by
      cases legible with
      | object inner =>
          exact .node (by decide) (fieldValues_plain faithful fields inner)
  | .unary operator operand, legible => by
      cases legible with
      | unary inner =>
          refine plain_part (line_titled (by decide) ?_)
            (expression_plain faithful operand inner)
          cases operator <;> decide
  | .binary left operator right, legible => by
      cases legible with
      | binary first second =>
          refine .node (line_titled (by decide) ?_)
            (plain_cons (expression_plain faithful left first)
              (plain_cons (expression_plain faithful right second) plain_nil))
          cases operator <;> decide
  | .assignment target value, legible => by
      cases legible with
      | assignment first second =>
          exact .node (by decide) (plain_cons
            (plain_part (by decide) (expression_plain faithful target first))
            (plain_cons (plain_part (by decide)
              (expression_plain faithful value second)) plain_nil))
  | .call callee arguments, legible => by
      cases legible with
      | call first second =>
          exact .node (by decide) (plain_cons
            (plain_part (by decide) (expression_plain faithful callee first))
            (plain_cons (.node (by decide)
              (expressions_plain faithful arguments second)) plain_nil))
  | .property object name, legible => by
      cases legible with
      | property inner plain =>
          exact plain_part (line_titled (by decide) plain.line)
            (expression_plain faithful object inner)
  | .index object subscript, legible => by
      cases legible with
      | index first second =>
          exact .node (by decide) (plain_cons
            (plain_part (by decide) (expression_plain faithful object first))
            (plain_cons (plain_part (by decide)
              (expression_plain faithful subscript second)) plain_nil))

theorem optional_plain (faithful : Formatting.Faithful) {label : String}
    (line : '\n' ∉ label.toList) :
    ∀ value : Option Expr, (∀ part ∈ value, part.Legible) →
      ∀ tree ∈ optional label value, tree.Plain
  | none, _ => plain_nil
  | some value, all =>
      plain_cons (plain_part line (expression_plain faithful value (all _ rfl)))
        plain_nil

theorem expressions_plain (faithful : Formatting.Faithful) :
    ∀ values : List Expr,
    (∀ value ∈ values, value.Legible) →
    ∀ tree ∈ expressions values, tree.Plain
  | [], _ => plain_nil
  | value :: rest, all =>
      plain_cons
        (expression_plain faithful value (all _ (List.mem_cons_self ..)))
        (expressions_plain faithful rest fun value member =>
          all value (.tail _ member))

theorem fieldValues_plain (faithful : Formatting.Faithful) :
    ∀ fields : List (String × Expr),
    (∀ field ∈ fields, field.2.Legible) →
    ∀ tree ∈ fieldValues fields, tree.Plain
  | [], _ => plain_nil
  | (key, value) :: rest, all =>
      plain_cons (plain_part
        (line_titled (by decide) (faithful.debug_line key))
        (expression_plain faithful value (all _ (List.mem_cons_self ..))))
        (fieldValues_plain faithful rest fun field member =>
          all field (.tail _ member))

end

theorem pattern_line (faithful : Formatting.Faithful) :
    ∀ tested : Pattern, '\n' ∉ (pattern tested).toList
  | .located _ inner => pattern_line faithful inner
  | .integer value => line_int _
  | .string value => faithful.debug_line value
  | .boolean value => line_bool value
  | .null => (by decide : '\n' ∉ "null".toList)
  | .wildcard => (by decide : '\n' ∉ "_".toList)

theorem returned_plain (faithful : Formatting.Faithful)
    {value : Option Expr}
    (all : ∀ result ∈ value, result.Legible) :
    ∀ tree ∈ returned value, tree.Plain := by
  cases value with
  | none => exact plain_nil
  | some value =>
      exact plain_cons (expression_plain faithful value (all _ rfl)) plain_nil

/-- A loop under its variable. -/
theorem plain_loop (faithful : Formatting.Faithful) {label name : String}
    {iterable : Expr} {body : Tree}
    (line : '\n' ∉ label.toList) (plain : PlainName name)
    (legible : iterable.Legible) (inner : body.Plain) :
    (Tree.node (titled label name)
      [.node "Iterable" [expression iterable], body]).Plain :=
  .node (line_titled line plain.line) (plain_cons (plain_part (by decide)
    (expression_plain faithful iterable legible))
    (plain_cons inner plain_nil))

mutual

theorem statement_plain (faithful : Formatting.Faithful) :
    ∀ node : Stmt, node.Legible →
    (statement node).Plain
  | .located _ _, legible => nomatch legible
  | .type name fields, legible => by
      cases legible with
      | type plain inner =>
          refine .node (line_titled (by decide) plain.line) ?_
          intro tree member
          obtain ⟨field, inside, rfl⟩ := List.mem_map.mp member
          exact typeField_plain (inner field inside)
  | .break, _ => plain_leaf (by decide)
  | .continue, _ => plain_leaf (by decide)
  | .parallel _ _ body, legible => by
      cases legible with
      | parallel plain first second =>
          exact plain_loop faithful (by decide) plain first
            (statement_plain faithful body second)
  | .for _ _ body, legible => by
      cases legible with
      | «for» plain first second =>
          exact plain_loop faithful (by decide) plain first
            (statement_plain faithful body second)
  | .match value arms, legible => by
      cases legible with
      | «match» first second third =>
          exact .node (by decide) (plain_cons (plain_part (by decide)
            (expression_plain faithful value first))
            (matchArms_plain faithful arms third))
  | .let _ _ value, legible => by
      cases legible with
      | «let» plain annotated inner =>
          exact plain_part (line_titled (by decide) (line_append plain.line
            (line_suffix (by decide) annotated)))
            (expression_plain faithful value inner)
  | .expression value, legible => by
      cases legible with
      | expression inner =>
          exact plain_part (by decide) (expression_plain faithful value inner)
  | .block list, legible => by
      cases legible with
      | block inner =>
          exact .node (by decide) (statements_plain faithful list inner)
  | .if test thenBranch elseBranch, legible => by
      cases legible with
      | «if» first second third =>
          exact .node (by decide) (plain_cons (plain_part (by decide)
            (expression_plain faithful test first)) (plain_cons
            (plain_part (by decide)
              (statement_plain faithful thenBranch second))
            (otherwise_plain faithful elseBranch third)))
  | .while test body, legible => by
      cases legible with
      | «while» first second =>
          exact .node (by decide) (plain_cons (plain_part (by decide)
            (expression_plain faithful test first))
            (plain_cons (statement_plain faithful body second) plain_nil))
  | .function _ parameters _ body, legible => by
      cases legible with
      | function plain given results inner =>
          have below : ∀ tree ∈ parameters.map parameter, tree.Plain := by
            intro tree member
            obtain ⟨field, inside, rfl⟩ := List.mem_map.mp member
            exact parameter_plain (given field inside)
          exact .node (line_titled (by decide) (line_append plain.line
            (line_suffix (by decide) results))) (plain_cons
            (.node (by decide) below)
            (plain_cons (statement_plain faithful body inner) plain_nil))
  | .return _, legible => by
      cases legible with
      | «return» inner =>
          exact .node (by decide) (returned_plain faithful inner)

theorem statements_plain (faithful : Formatting.Faithful) :
    ∀ list : List Stmt,
    (∀ node ∈ list, node.Legible) →
    ∀ tree ∈ statements list, tree.Plain
  | [], _ => plain_nil
  | node :: rest, all =>
      plain_cons (statement_plain faithful node (all _ (List.mem_cons_self ..)))
        (statements_plain faithful rest fun node member =>
          all node (.tail _ member))

theorem otherwise_plain (faithful : Formatting.Faithful) :
    ∀ branch : Option Stmt,
    (∀ node ∈ branch, node.Legible) →
    ∀ tree ∈ otherwise branch, tree.Plain
  | none, _ => plain_nil
  | some branch, all =>
      plain_cons (plain_part (by decide)
        (statement_plain faithful branch (all _ rfl))) plain_nil

theorem matchArms_plain (faithful : Formatting.Faithful) :
    ∀ arms : List (Pattern × Stmt),
    (∀ arm ∈ arms, arm.2.Legible) →
    ∀ tree ∈ matchArms arms, tree.Plain
  | [], _ => plain_nil
  | (tested, body) :: rest, all =>
      plain_cons (plain_part
        (line_titled (by decide) (pattern_line faithful tested))
        (statement_plain faithful body (all _ (List.mem_cons_self ..))))
        (matchArms_plain faithful rest fun arm member =>
          all arm (.tail _ member))

end

end Pretty

/-- The dump of legible programs tells the program. -/
theorem Program.eq_of_pretty [Formatting] (faithful : Formatting.Faithful)
    {program other : Program}
    (legible : ∀ node ∈ program.statements, node.Legible)
    (legible' : ∀ node ∈ other.statements, node.Legible)
    (same : program.pretty = other.pretty) : program = other := by
  obtain ⟨list⟩ := program
  obtain ⟨list'⟩ := other
  have texts := (String.append_right_inj _).mp same
  have ends : Tree.Outside "" [] := by
    intro c _ starts
    simpa using starts.length_le
  obtain ⟨trees, _⟩ := Tree.writeAll_injective ""
    (Pretty.statements_plain faithful list legible)
    (Pretty.statements_plain faithful list' legible') ends ends
    (congrArg (·.toList ++ []) texts)
  rw [Pretty.statements_injective faithful list legible legible' trees]

end NetLang
