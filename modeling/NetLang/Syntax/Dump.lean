import NetLang.Syntax.Layout
import NetLang.Syntax.Legible

/-!
# The tree of a program

The title of a label tells the kind of its node, and what follows the title
belongs to the node.  Two legible programs with the same tree are the same.
-/

namespace NetLang

namespace Pretty

section Labels

/-- A label with a title, and perhaps a detail after it. -/
inductive Titled (title : String) : Tree → Prop where
  | alone (children : List Tree) : Titled title (.node title children)
  | detailed (detail : String) (children : List Tree) :
      Titled title (.node (titled title detail) children)

theorem Titled.split {title : String} {tree : Tree}
    (named : Titled title tree) :
    ∃ back, tree.label.toList = title.toList ++ back ∧
      ∀ c ∈ back.head?, c = ' ' := by
  cases named with
  | alone children => exact ⟨[], by simp [Tree.label], by simp⟩
  | detailed detail children =>
      refine ⟨' ' :: detail.toList, ?_, by simp⟩
      have space : " ".toList = [' '] := by decide
      simp [Tree.label, titled, String.toList_append, space]

theorem Titled.unique {title title' : String} {tree : Tree}
    (named : Titled title tree) (named' : Titled title' tree)
    (word : ' ' ∉ title.toList) (word' : ' ' ∉ title'.toList) :
    title = title' := by
  obtain ⟨back, split, next⟩ := named.split
  obtain ⟨back', split', next'⟩ := named'.split
  exact String.toList_inj.mp
    (append_inj_at word word' next next' (split.symm.trans split')).1

@[simp] theorem titled_inj {title detail detail' : String} :
    titled title detail = titled title detail' ↔ detail = detail' := by
  simp [titled]

/-- A name and the annotation after it can be told apart. -/
theorem suffix_injective {separator name name' : String} {c : Char}
    {annotated annotated' : Option TypeAnnotation}
    (starts : separator.toList.head? = some c)
    (apart : c ∈ ['\n', ' ', ':', '-'])
    (plain : PlainName name) (plain' : PlainName name')
    (legible : ∀ annotation ∈ annotated, annotation.Legible)
    (legible' : ∀ annotation ∈ annotated', annotation.Legible)
    (same : name ++ suffix separator annotated =
      name' ++ suffix separator annotated') :
    name = name' ∧ annotated = annotated' := by
  have next : ∀ annotated : Option TypeAnnotation,
      ∀ d ∈ (suffix separator annotated).toList.head?, d = c := by
    intro annotated d member
    cases annotated with
    | none => simp [suffix] at member
    | some annotated =>
        rw [suffix, String.toList_append, List.head?_append, starts] at member
        exact (Option.some.inj member).symm
  have whole := congrArg String.toList same
  rw [String.toList_append, String.toList_append] at whole
  obtain ⟨names, suffixes⟩ := append_inj_at (plain c apart) (plain' c apart)
    (next annotated) (next annotated') whole
  refine ⟨String.toList_inj.mp names, ?_⟩
  have filled : separator ≠ "" := by
    rintro rfl
    cases starts
  have texts := String.toList_inj.mp suffixes
  cases annotated with
  | none =>
      cases annotated' with
      | none => rfl
      | some annotated' => simp [suffix, filled] at texts
  | some annotated =>
      cases annotated' with
      | none => simp [suffix, filled] at texts
      | some annotated' =>
          obtain ⟨name, span⟩ := annotated
          obtain ⟨name', span'⟩ := annotated'
          cases (legible _ rfl).span
          cases (legible' _ rfl).span
          have names : name = name' := by simpa [suffix] using texts
          rw [names]

theorem typeField_injective {field field' : TypeField}
    (legible : field.Legible) (legible' : field'.Legible)
    (same : typeField field = typeField field') : field = field' := by
  obtain ⟨name, annotated⟩ := field
  obtain ⟨name', annotated'⟩ := field'
  have labels : name ++ suffix ": " (some annotated) =
      name' ++ suffix ": " (some annotated') := by
    simpa [typeField, Tree.leaf, suffix, String.append_assoc] using same
  obtain ⟨names, annotations⟩ := suffix_injective (c := ':') (by decide)
    (by decide) legible.name legible'.name
    (fun _ member => Option.some.inj member ▸ legible.annotated)
    (fun _ member => Option.some.inj member ▸ legible'.annotated) labels
  cases names
  cases annotations
  rfl

theorem parameter_injective {given given' : Parameter}
    (legible : given.Legible) (legible' : given'.Legible)
    (same : parameter given = parameter given') : given = given' := by
  obtain ⟨name, annotated⟩ := given
  obtain ⟨name', annotated'⟩ := given'
  simp only [parameter, Tree.leaf, Tree.node.injEq, and_true] at same
  obtain ⟨rfl, rfl⟩ := suffix_injective (c := ':') (by decide) (by decide)
    legible.name legible'.name legible.annotated legible'.annotated same
  rfl

theorem map_injective {α β : Type} {show' : α → β} {legible : α → Prop}
    (tells : ∀ {value value'}, legible value → legible value' →
      show' value = show' value' → value = value') :
    ∀ {list list' : List α}, (∀ value ∈ list, legible value) →
      (∀ value ∈ list', legible value) →
      list.map show' = list'.map show' → list = list'
  | [], [], _, _, _ => rfl
  | value :: rest, value' :: rest', all, all', same => by
      injection same with first later
      rw [tells (all _ (List.mem_cons_self ..))
        (all' _ (List.mem_cons_self ..)) first]
      rw [map_injective tells (fun value member => all value (.tail _ member))
        (fun value member => all' value (.tail _ member)) later]

theorem transport_injective : Function.Injective Transport.shown := by
  intro transport transport' same
  cases transport <;> cases transport' <;> simp_all [Transport.shown]

theorem method_injective : Function.Injective HttpMethod.shown := by
  intro method method' same
  cases method <;> cases method' <;> simp_all [HttpMethod.shown]

theorem unaryOp_injective : Function.Injective UnaryOp.shown := by
  intro operator operator' same
  cases operator <;> cases operator' <;> simp_all [UnaryOp.shown]

theorem binaryOp_injective : Function.Injective BinaryOp.shown := by
  intro operator operator' same
  cases operator <;> cases operator' <;> simp_all [BinaryOp.shown]

theorem toString_bool_injective :
    Function.Injective (toString : Bool → String) := by
  intro value value' same
  cases value <;> cases value' <;>
    first | rfl | exact absurd same (by decide)

theorem toString_nat_char (value : Nat) :
    ∀ c ∈ (toString value).toList, c.isDigit = true := by
  intro c member
  have shown : (toString value).toList = Nat.toDigits 10 value :=
    Nat.toList_repr
  rw [shown] at member
  exact Nat.isDigit_of_mem_toDigits (by decide) (by decide) member

theorem toString_negSucc (magnitude : Nat) :
    (toString (Int.negSucc magnitude)).toList =
      '-' :: (toString (magnitude + 1)).toList := by
  have text : toString (Int.negSucc magnitude) =
      "-" ++ toString (magnitude + 1) := rfl
  have sign : "-".toList = ['-'] := by decide
  rw [text, String.toList_append, sign, List.singleton_append]

theorem toString_int_char (value : Int) :
    ∀ c ∈ (toString value).toList, c.isDigit = true ∨ c = '-' := by
  intro c member
  cases value with
  | ofNat magnitude => exact .inl (toString_nat_char magnitude c member)
  | negSucc magnitude =>
      rw [toString_negSucc, List.mem_cons] at member
      cases member with
      | inl sign => exact .inr sign
      | inr digit => exact .inl (toString_nat_char _ c digit)

theorem toString_int_filled (value : Int) : (toString value).toList ≠ [] := by
  cases value with
  | ofNat magnitude =>
      have shown : (toString (Int.ofNat magnitude)).toList =
          Nat.toDigits 10 magnitude := Nat.toList_repr
      rw [shown]
      exact Nat.toDigits_ne_nil
  | negSucc magnitude =>
      rw [toString_negSucc]
      exact List.cons_ne_nil _ _

theorem protocol_injective {name name' : Option String}
    (same : protocol name = protocol name') : name = name' := by
  cases name <;> cases name' <;> simp_all [protocol, Tree.leaf]

end Labels

section Expressions

variable [Formatting]

/-- The first word of the dump of an expression. -/
def exprTitle : Expr → String
  | .construct _ _ => "Construct"
  | .located _ inner => exprTitle inner
  | .connection _ _ _ => "Connection"
  | .send _ _ _ => "Send"
  | .receive _ => "Receive"
  | .request _ _ _ => "Request"
  | .integer _ => "Integer"
  | .float _ => "Float"
  | .string _ => "String"
  | .boolean _ => "Boolean"
  | .null => "Null"
  | .duration _ => "Duration"
  | .identifier _ => "Identifier"
  | .array _ => "Array"
  | .object _ => "Object"
  | .unary _ _ => "Unary"
  | .binary _ _ _ => "Binary"
  | .assignment _ _ => "Assignment"
  | .call _ _ => "Call"
  | .property _ _ => "Property"
  | .index _ _ => "Index"

omit [Formatting] in
theorem exprTitle_word {node : Expr} (legible : node.Legible) :
    ' ' ∉ (exprTitle node).toList := by
  cases legible <;> (dsimp only [exprTitle]; decide)

theorem expression_titled {node : Expr} (legible : node.Legible) :
    Titled (exprTitle node) (expression node) := by
  cases legible with
  | send | receive | null | array | object | assignment | call | index =>
      exact .alone _
  | construct | connection | request | integer | float | string | boolean
  | duration | identifier | unary | binary | property =>
      exact .detailed _ _

theorem exprTitle_eq {node node' : Expr} (legible : node.Legible)
    (legible' : node'.Legible) (same : expression node = expression node') :
    exprTitle node = exprTitle node' :=
  (expression_titled legible).unique (same ▸ expression_titled legible')
    (exprTitle_word legible) (exprTitle_word legible')

mutual

/-- The tree of an expression tells the expression. -/
theorem expression_injective (faithful : Formatting.Faithful) :
    ∀ node {node' : Expr}, node.Legible →
    node'.Legible → expression node = expression node' → node = node'
  | .located _ _, _, legible, _, _ => nomatch legible
  | .construct name fields, _, legible, legible', same => by
      have titles := exprTitle_eq legible legible' same
      cases legible with
      | construct _ inner =>
      cases legible' with
      | construct _ inner' =>
          simp only [expression, Tree.node.injEq, titled_inj] at same
          obtain ⟨rfl, below⟩ := same
          rw [fieldValues_injective faithful fields inner inner' below]
      | _ => simp [exprTitle] at titles
  | .array values, _, legible, legible', same => by
      have titles := exprTitle_eq legible legible' same
      cases legible with
      | array inner =>
      cases legible' with
      | array inner' =>
          simp only [expression, Tree.node.injEq, true_and] at same
          rw [expressions_injective faithful values inner inner' same]
      | _ => simp [exprTitle] at titles
  | .connection transport address protocolName, _, legible, legible', same => by
      have titles := exprTitle_eq legible legible' same
      cases legible with
      | connection inner _ =>
      cases legible' with
      | connection inner' _ =>
          simp only [expression, Tree.node.injEq, titled_inj, List.cons.injEq,
            true_and, and_true] at same
          obtain ⟨transports, addresses, protocols⟩ := same
          cases transport_injective transports
          rw [expression_injective faithful address inner inner' addresses,
            protocol_injective protocols]
      | _ => simp [exprTitle] at titles
  | .send connection data destination, _, legible, legible', same => by
      have titles := exprTitle_eq legible legible' same
      cases legible with
      | send first second third =>
      cases legible' with
      | send first' second' third' =>
          simp only [expression, Tree.node.injEq, List.cons.injEq, true_and,
            and_true] at same
          obtain ⟨connections, contents, destinations⟩ := same
          rw [expression_injective faithful connection first first' connections,
            expression_injective faithful data second second' contents,
            optional_injective faithful destination third third' destinations]
      | _ => simp [exprTitle] at titles
  | .receive connection, _, legible, legible', same => by
      have titles := exprTitle_eq legible legible' same
      cases legible with
      | receive inner =>
      cases legible' with
      | receive inner' =>
          simp only [expression, Tree.node.injEq, List.cons.injEq, true_and,
            and_true] at same
          rw [expression_injective faithful connection inner inner' same]
      | _ => simp [exprTitle] at titles
  | .request method url config, _, legible, legible', same => by
      have titles := exprTitle_eq legible legible' same
      cases legible with
      | request first second =>
      cases legible' with
      | request first' second' =>
          simp only [expression, Tree.node.injEq, titled_inj, List.cons.injEq,
            true_and, and_true] at same
          obtain ⟨methods, urls, configs⟩ := same
          cases method_injective methods
          rw [expression_injective faithful url first first' urls,
            optional_injective faithful config second second' configs]
      | _ => simp [exprTitle] at titles
  | .integer value, _, legible, legible', same => by
      have titles := exprTitle_eq legible legible' same
      cases legible with
      | integer value =>
      cases legible' with
      | integer value' =>
          simp only [expression, Tree.leaf, Tree.node.injEq, titled_inj,
            and_true] at same
          rw [Int64.toInt_inj.mp (Int.repr_injective same)]
      | _ => simp [exprTitle] at titles
  | .float value, _, legible, legible', same => by
      have titles := exprTitle_eq legible legible' same
      cases legible with
      | float finite positive =>
      cases legible' with
      | float finite' positive' =>
          simp only [expression, Tree.leaf, Tree.node.injEq, titled_inj,
            and_true] at same
          rw [faithful.float_injective ⟨finite, positive⟩
            ⟨finite', positive'⟩ same]
      | _ => simp [exprTitle] at titles
  | .string value, _, legible, legible', same => by
      have titles := exprTitle_eq legible legible' same
      cases legible with
      | string value =>
      cases legible' with
      | string value' =>
          simp only [expression, Tree.leaf, Tree.node.injEq, titled_inj,
            and_true] at same
          rw [faithful.debug_injective same]
      | _ => simp [exprTitle] at titles
  | .boolean value, _, legible, legible', same => by
      have titles := exprTitle_eq legible legible' same
      cases legible with
      | boolean value =>
      cases legible' with
      | boolean value' =>
          simp only [expression, Tree.leaf, Tree.node.injEq, titled_inj,
            and_true] at same
          rw [toString_bool_injective same]
      | _ => simp [exprTitle] at titles
  | .null, _, legible, legible', same => by
      have titles := exprTitle_eq legible legible' same
      cases legible' with
      | null => rfl
      | _ => simp [exprTitle] at titles
  | .duration milliseconds, _, legible, legible', same => by
      have titles := exprTitle_eq legible legible' same
      cases legible with
      | duration milliseconds =>
      cases legible' with
      | duration milliseconds' =>
          simp only [expression, Tree.leaf, Tree.node.injEq, titled_inj,
            and_true, String.append_left_inj] at same
          rw [UInt64.toNat_inj.mp (Nat.repr_injective same)]
      | _ => simp [exprTitle] at titles
  | .identifier name, _, legible, legible', same => by
      have titles := exprTitle_eq legible legible' same
      cases legible with
      | identifier _ =>
      cases legible' with
      | identifier _ =>
          simp only [expression, Tree.leaf, Tree.node.injEq, titled_inj,
            and_true] at same
          rw [same]
      | _ => simp [exprTitle] at titles
  | .object fields, _, legible, legible', same => by
      have titles := exprTitle_eq legible legible' same
      cases legible with
      | object inner =>
      cases legible' with
      | object inner' =>
          simp only [expression, Tree.node.injEq, true_and] at same
          rw [fieldValues_injective faithful fields inner inner' same]
      | _ => simp [exprTitle] at titles
  | .unary operator operand, _, legible, legible', same => by
      have titles := exprTitle_eq legible legible' same
      cases legible with
      | unary inner =>
      cases legible' with
      | unary inner' =>
          simp only [expression, Tree.node.injEq, titled_inj, List.cons.injEq,
            and_true] at same
          obtain ⟨operators, operands⟩ := same
          cases unaryOp_injective operators
          rw [expression_injective faithful operand inner inner' operands]
      | _ => simp [exprTitle] at titles
  | .binary left operator right, _, legible, legible', same => by
      have titles := exprTitle_eq legible legible' same
      cases legible with
      | binary first second =>
      cases legible' with
      | binary first' second' =>
          simp only [expression, Tree.node.injEq, titled_inj, List.cons.injEq,
            and_true] at same
          obtain ⟨operators, lefts, rights⟩ := same
          cases binaryOp_injective operators
          rw [expression_injective faithful left first first' lefts,
            expression_injective faithful right second second' rights]
      | _ => simp [exprTitle] at titles
  | .assignment target value, _, legible, legible', same => by
      have titles := exprTitle_eq legible legible' same
      cases legible with
      | assignment first second =>
      cases legible' with
      | assignment first' second' =>
          simp only [expression, Tree.node.injEq, List.cons.injEq, true_and,
            and_true] at same
          obtain ⟨targets, values⟩ := same
          rw [expression_injective faithful target first first' targets,
            expression_injective faithful value second second' values]
      | _ => simp [exprTitle] at titles
  | .call callee arguments, _, legible, legible', same => by
      have titles := exprTitle_eq legible legible' same
      cases legible with
      | call first second =>
      cases legible' with
      | call first' second' =>
          simp only [expression, Tree.node.injEq, List.cons.injEq, true_and,
            and_true] at same
          obtain ⟨callees, passed⟩ := same
          rw [expression_injective faithful callee first first' callees,
            expressions_injective faithful arguments second second' passed]
      | _ => simp [exprTitle] at titles
  | .property object name, _, legible, legible', same => by
      have titles := exprTitle_eq legible legible' same
      cases legible with
      | property inner _ =>
      cases legible' with
      | property inner' _ =>
          simp only [expression, Tree.node.injEq, titled_inj, List.cons.injEq,
            and_true] at same
          obtain ⟨names, objects⟩ := same
          rw [names, expression_injective faithful object inner inner' objects]
      | _ => simp [exprTitle] at titles
  | .index object subscript, _, legible, legible', same => by
      have titles := exprTitle_eq legible legible' same
      cases legible with
      | index first second =>
      cases legible' with
      | index first' second' =>
          simp only [expression, Tree.node.injEq, List.cons.injEq, true_and,
            and_true] at same
          obtain ⟨objects, subscripts⟩ := same
          rw [expression_injective faithful object first first' objects,
            expression_injective faithful subscript second second' subscripts]
      | _ => simp [exprTitle] at titles

theorem expressions_injective (faithful : Formatting.Faithful) :
    ∀ values {values' : List Expr},
    (∀ value ∈ values, value.Legible) →
    (∀ value ∈ values', value.Legible) →
    expressions values = expressions values' → values = values'
  | [], [], _, _, _ => rfl
  | value :: rest, value' :: rest', all, all', same => by
      injection same with first later
      rw [expression_injective faithful value (all _ (List.mem_cons_self ..))
        (all' _ (List.mem_cons_self ..)) first]
      rw [expressions_injective faithful rest
        (fun value member => all value (.tail _ member))
        (fun value member => all' value (.tail _ member)) later]

theorem optional_injective (faithful : Formatting.Faithful) {label : String} :
    ∀ value {value' : Option Expr}, (∀ part ∈ value, part.Legible) →
      (∀ part ∈ value', part.Legible) →
      optional label value = optional label value' → value = value'
  | none, none, _, _, _ => rfl
  | none, some _, _, _, same => by simp [optional] at same
  | some _, none, _, _, same => by simp [optional] at same
  | some value, some value', all, all', same => by
      simp only [optional, List.cons.injEq, Tree.node.injEq, true_and,
        and_true] at same
      rw [expression_injective faithful value (all _ rfl) (all' _ rfl) same]

theorem fieldValues_injective (faithful : Formatting.Faithful) :
    ∀ fields {fields' : List (String × Expr)},
    (∀ field ∈ fields, field.2.Legible) →
    (∀ field ∈ fields', field.2.Legible) →
    fieldValues fields = fieldValues fields' → fields = fields'
  | [], [], _, _, _ => rfl
  | (key, value) :: rest, (key', value') :: rest', all, all', same => by
      simp only [fieldValues, List.cons.injEq, Tree.node.injEq, titled_inj,
        and_true] at same
      obtain ⟨⟨keys, first⟩, later⟩ := same
      rw [faithful.debug_injective keys]
      rw [expression_injective faithful value (all _ (List.mem_cons_self ..))
        (all' _ (List.mem_cons_self ..)) first]
      rw [fieldValues_injective faithful rest
        (fun field member => all field (.tail _ member))
        (fun field member => all' field (.tail _ member)) later]

end

/-- Which patterns have a text that begins with a character. -/
def patternLead (c : Char) : Nat :=
  if c.isDigit = true ∨ c = '-' then 0
  else if c = '"' then 1
  else if c = 't' ∨ c = 'f' then 2
  else if c = 'n' then 3
  else 4

def patternKind : Pattern → Nat
  | .located _ inner => patternKind inner
  | .integer _ => 0
  | .string _ => 1
  | .boolean _ => 2
  | .null => 3
  | .wildcard => 4

theorem pattern_lead (faithful : Formatting.Faithful) {tested : Pattern}
    (legible : tested.Legible) :
    (pattern tested).toList.head?.map patternLead =
      some (patternKind tested) := by
  cases tested with
  | located span inner => exact absurd rfl (legible span inner)
  | integer value =>
      obtain ⟨c, rest, shown⟩ :=
        List.exists_cons_of_ne_nil (toString_int_filled value.toInt)
      have sign : c.isDigit = true ∨ c = '-' :=
        toString_int_char value.toInt c (shown ▸ List.mem_cons_self ..)
      rw [pattern, shown, List.head?_cons, Option.map_some, patternLead,
        if_pos sign, patternKind]
  | string value =>
      rw [pattern, faithful.debug_quoted value, patternKind]
      decide
  | boolean value =>
      rw [pattern, patternKind]
      cases value <;> decide
  | null =>
      rw [pattern, patternKind]
      decide
  | wildcard =>
      rw [pattern, patternKind]
      decide

/-- The text of a pattern tells the pattern. -/
theorem pattern_injective (faithful : Formatting.Faithful)
    {tested tested' : Pattern}
    (legible : tested.Legible) (legible' : tested'.Legible)
    (same : pattern tested = pattern tested') : tested = tested' := by
  have kinds : patternKind tested = patternKind tested' := by
    have lead := pattern_lead faithful legible
    rw [same, pattern_lead faithful legible'] at lead
    exact (Option.some.inj lead).symm
  cases tested with
  | located span inner => exact absurd rfl (legible span inner)
  | integer value =>
      cases tested' with
      | located span inner => exact absurd rfl (legible' span inner)
      | integer value' => rw [Int64.toInt_inj.mp (Int.repr_injective same)]
      | _ => simp [patternKind] at kinds
  | string value =>
      cases tested' with
      | located span inner => exact absurd rfl (legible' span inner)
      | string value' => rw [faithful.debug_injective same]
      | _ => simp [patternKind] at kinds
  | boolean value =>
      cases tested' with
      | located span inner => exact absurd rfl (legible' span inner)
      | boolean value' => rw [toString_bool_injective same]
      | _ => simp [patternKind] at kinds
  | null =>
      cases tested' with
      | located span inner => exact absurd rfl (legible' span inner)
      | null => rfl
      | _ => simp [patternKind] at kinds
  | wildcard =>
      cases tested' with
      | located span inner => exact absurd rfl (legible' span inner)
      | wildcard => rfl
      | _ => simp [patternKind] at kinds

theorem returned_injective (faithful : Formatting.Faithful)
    {value value' : Option Expr}
    (all : ∀ result ∈ value, result.Legible)
    (all' : ∀ result ∈ value', result.Legible)
    (same : returned value = returned value') : value = value' := by
  cases value with
  | none =>
      cases value' with
      | none => rfl
      | some value' => simp [returned] at same
  | some value =>
      cases value' with
      | none => simp [returned] at same
      | some value' =>
          simp only [returned, List.cons.injEq, and_true] at same
          rw [expression_injective faithful value (all _ rfl) (all' _ rfl) same]

end Expressions

section Statements

variable [Formatting]

/-- The first word of the dump of a statement. -/
def stmtTitle : Stmt → String
  | .type _ _ => "Type"
  | .break => "Break"
  | .continue => "Continue"
  | .located _ inner => stmtTitle inner
  | .let _ _ _ => "Let"
  | .expression _ => "Expression"
  | .block _ => "Block"
  | .function _ _ _ _ => "Function"
  | .return _ => "Return"
  | .if _ _ _ => "If"
  | .while _ _ => "While"
  | .for _ _ _ => "For"
  | .parallel _ _ _ => "Parallel"
  | .match _ _ => "Match"

omit [Formatting] in
theorem stmtTitle_word {node : Stmt} (legible : node.Legible) :
    ' ' ∉ (stmtTitle node).toList := by
  cases legible <;> (dsimp only [stmtTitle]; decide)

theorem statement_titled {node : Stmt} (legible : node.Legible) :
    Titled (stmtTitle node) (statement node) := by
  cases legible with
  | «break» | «continue» | expression | block | «return» | «if» | «while»
  | «match» =>
      exact .alone _
  | type | «let» | function | «for» | parallel => exact .detailed _ _

theorem stmtTitle_eq {node node' : Stmt} (legible : node.Legible)
    (legible' : node'.Legible) (same : statement node = statement node') :
    stmtTitle node = stmtTitle node' :=
  (statement_titled legible).unique (same ▸ statement_titled legible')
    (stmtTitle_word legible) (stmtTitle_word legible')

mutual

/-- The tree of a statement tells the statement. -/
theorem statement_injective (faithful : Formatting.Faithful) :
    ∀ node {node' : Stmt}, node.Legible →
    node'.Legible → statement node = statement node' → node = node'
  | .located _ _, _, legible, _, _ => nomatch legible
  | .type name fields, _, legible, legible', same => by
      have titles := stmtTitle_eq legible legible' same
      cases legible with
      | type _ inner =>
      cases legible' with
      | type _ inner' =>
          simp only [statement, Tree.node.injEq, titled_inj] at same
          obtain ⟨names, below⟩ := same
          rw [names, map_injective typeField_injective inner inner' below]
      | _ => simp [stmtTitle] at titles
  | .break, _, legible, legible', same => by
      have titles := stmtTitle_eq legible legible' same
      cases legible' with
      | «break» => rfl
      | _ => simp [stmtTitle] at titles
  | .continue, _, legible, legible', same => by
      have titles := stmtTitle_eq legible legible' same
      cases legible' with
      | «continue» => rfl
      | _ => simp [stmtTitle] at titles
  | .for variableName iterable body, _, legible, legible', same => by
      have titles := stmtTitle_eq legible legible' same
      cases legible with
      | «for» _ first second =>
      cases legible' with
      | «for» _ first' second' =>
          simp only [statement, Tree.node.injEq, titled_inj, List.cons.injEq,
            true_and, and_true] at same
          obtain ⟨names, iterables, bodies⟩ := same
          rw [names, expression_injective faithful iterable first first'
            iterables, statement_injective faithful body second second' bodies]
      | _ => simp [stmtTitle] at titles
  | .parallel variableName iterable body, _, legible, legible', same => by
      have titles := stmtTitle_eq legible legible' same
      cases legible with
      | parallel _ first second =>
      cases legible' with
      | parallel _ first' second' =>
          simp only [statement, Tree.node.injEq, titled_inj, List.cons.injEq,
            true_and, and_true] at same
          obtain ⟨names, iterables, bodies⟩ := same
          rw [names, expression_injective faithful iterable first first'
            iterables, statement_injective faithful body second second' bodies]
      | _ => simp [stmtTitle] at titles
  | .match value arms, _, legible, legible', same => by
      have titles := stmtTitle_eq legible legible' same
      cases legible with
      | «match» first second third =>
      cases legible' with
      | «match» first' second' third' =>
          simp only [statement, Tree.node.injEq, List.cons.injEq, true_and,
            and_true] at same
          obtain ⟨values, below⟩ := same
          rw [expression_injective faithful value first first' values,
            matchArms_injective faithful arms second third second' third' below]
      | _ => simp [stmtTitle] at titles
  | .let name annotated value, _, legible, legible', same => by
      have titles := stmtTitle_eq legible legible' same
      cases legible with
      | «let» plain inner first =>
      cases legible' with
      | «let» plain' inner' first' =>
          simp only [statement, Tree.node.injEq, titled_inj, List.cons.injEq,
            and_true] at same
          obtain ⟨labels, values⟩ := same
          obtain ⟨names, annotations⟩ := suffix_injective (c := ':')
            (by decide) (by decide) plain plain' inner inner' labels
          rw [names, annotations,
            expression_injective faithful value first first' values]
      | _ => simp [stmtTitle] at titles
  | .expression value, _, legible, legible', same => by
      have titles := stmtTitle_eq legible legible' same
      cases legible with
      | expression first =>
      cases legible' with
      | expression first' =>
          simp only [statement, Tree.node.injEq, List.cons.injEq, true_and,
            and_true] at same
          rw [expression_injective faithful value first first' same]
      | _ => simp [stmtTitle] at titles
  | .block list, _, legible, legible', same => by
      have titles := stmtTitle_eq legible legible' same
      cases legible with
      | block inner =>
      cases legible' with
      | block inner' =>
          simp only [statement, Tree.node.injEq, true_and] at same
          rw [statements_injective faithful list inner inner' same]
      | _ => simp [stmtTitle] at titles
  | .if test thenBranch elseBranch, _, legible, legible', same => by
      have titles := stmtTitle_eq legible legible' same
      cases legible with
      | «if» first second third =>
      cases legible' with
      | «if» first' second' third' =>
          simp only [statement, Tree.node.injEq, List.cons.injEq, true_and,
            and_true] at same
          obtain ⟨tests, thens, elses⟩ := same
          rw [expression_injective faithful test first first' tests,
            statement_injective faithful thenBranch second second' thens,
            otherwise_injective faithful elseBranch third third' elses]
      | _ => simp [stmtTitle] at titles
  | .while test body, _, legible, legible', same => by
      have titles := stmtTitle_eq legible legible' same
      cases legible with
      | «while» first second =>
      cases legible' with
      | «while» first' second' =>
          simp only [statement, Tree.node.injEq, List.cons.injEq, true_and,
            and_true] at same
          obtain ⟨tests, bodies⟩ := same
          rw [expression_injective faithful test first first' tests,
            statement_injective faithful body second second' bodies]
      | _ => simp [stmtTitle] at titles
  | .function name parameters returnAnnotated body, _, legible, legible',
      same => by
      have titles := stmtTitle_eq legible legible' same
      cases legible with
      | function plain given results inner =>
      cases legible' with
      | function plain' given' results' inner' =>
          simp only [statement, Tree.node.injEq, titled_inj, List.cons.injEq,
            true_and, and_true] at same
          obtain ⟨labels, below, bodies⟩ := same
          obtain ⟨names, annotations⟩ := suffix_injective (c := ' ')
            (by decide) (by decide) plain plain' results results' labels
          rw [names, annotations,
            map_injective parameter_injective given given' below,
            statement_injective faithful body inner inner' bodies]
      | _ => simp [stmtTitle] at titles
  | .return value, _, legible, legible', same => by
      have titles := stmtTitle_eq legible legible' same
      cases legible with
      | «return» inner =>
      cases legible' with
      | «return» inner' =>
          simp only [statement, Tree.node.injEq, true_and] at same
          rw [returned_injective faithful inner inner' same]
      | _ => simp [stmtTitle] at titles

theorem statements_injective (faithful : Formatting.Faithful) :
    ∀ list {list' : List Stmt},
    (∀ node ∈ list, node.Legible) → (∀ node ∈ list', node.Legible) →
    statements list = statements list' → list = list'
  | [], [], _, _, _ => rfl
  | node :: rest, node' :: rest', all, all', same => by
      injection same with first later
      rw [statement_injective faithful node (all _ (List.mem_cons_self ..))
        (all' _ (List.mem_cons_self ..)) first]
      rw [statements_injective faithful rest
        (fun node member => all node (.tail _ member))
        (fun node member => all' node (.tail _ member)) later]

theorem otherwise_injective (faithful : Formatting.Faithful) :
    ∀ branch {branch' : Option Stmt},
    (∀ node ∈ branch, node.Legible) → (∀ node ∈ branch', node.Legible) →
    otherwise branch = otherwise branch' → branch = branch'
  | none, none, _, _, _ => rfl
  | none, some _, _, _, same => by simp [otherwise] at same
  | some _, none, _, _, same => by simp [otherwise] at same
  | some branch, some branch', all, all', same => by
      simp only [otherwise, List.cons.injEq, Tree.node.injEq, true_and,
        and_true] at same
      rw [statement_injective faithful branch (all _ rfl) (all' _ rfl) same]

theorem matchArms_injective (faithful : Formatting.Faithful) :
    ∀ arms {arms' : List (Pattern × Stmt)},
    (∀ arm ∈ arms, arm.1.Legible) → (∀ arm ∈ arms, arm.2.Legible) →
    (∀ arm ∈ arms', arm.1.Legible) → (∀ arm ∈ arms', arm.2.Legible) →
    matchArms arms = matchArms arms' → arms = arms'
  | [], [], _, _, _, _, _ => rfl
  | (tested, body) :: rest, (tested', body') :: rest', tests, bodies,
      tests', bodies', same => by
      simp only [matchArms, List.cons.injEq, Tree.node.injEq, titled_inj,
        and_true] at same
      obtain ⟨⟨first, inner⟩, later⟩ := same
      have patterns : tested = tested' := pattern_injective faithful
        (tests _ (List.mem_cons_self ..)) (tests' _ (List.mem_cons_self ..))
        first
      rw [patterns, statement_injective faithful body
        (bodies _ (List.mem_cons_self ..))
        (bodies' _ (List.mem_cons_self ..)) inner]
      rw [matchArms_injective faithful rest
        (fun arm member => tests arm (.tail _ member))
        (fun arm member => bodies arm (.tail _ member))
        (fun arm member => tests' arm (.tail _ member))
        (fun arm member => bodies' arm (.tail _ member)) later]

end

end Statements

end Pretty

end NetLang
