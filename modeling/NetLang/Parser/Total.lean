import NetLang.Parser.Statement

/-!
# Parsing is total

Whatever the tokens are, as long as the last one is the only end of the input,
parsing ends with a tree or with an error at one of the tokens.  Every nested
entry point is reached with fewer tokens than are left to its caller, so the
fuel suffices.
-/

namespace NetLang

open Parse

variable {α β : Type} {tokens : List Token} {bound consumed : Nat}

/-- The end of the input is the last token and no other one. -/
structure SingleEof (tokens : List Token) : Prop where
  ends : ∃ before last, tokens = before ++ [last] ∧ last.kind = .eof ∧
    ∀ token ∈ before, token.kind ≠ .eof

theorem new_ok_iff {parser : Parser} :
    Parser.new tokens = .ok parser ↔
      SingleEof tokens ∧ parser = ⟨[], tokens, false, true⟩ := by
  unfold Parser.new
  rcases List.eq_nil_or_concat tokens with rfl | ⟨before, last, rfl⟩
  · constructor
    · intro same
      cases same
    · rintro ⟨⟨before, last, same, _⟩, _⟩
      simp at same
  · rw [List.concat_eq_append, List.getLast?_concat, List.dropLast_concat]
    dsimp only
    constructor
    · intro same
      split at same
      · cases same
      · next single =>
          obtain ⟨isEof, others⟩ := not_or.mp single
          cases same
          refine ⟨⟨before, last, rfl, by simpa using isEof, ?_⟩, rfl⟩
          simpa using others
    · rintro ⟨⟨before', last', same, isEof, others⟩, rfl⟩
      obtain ⟨rfl, last⟩ := List.append_inj' same rfl
      cases last
      rw [if_neg]
      simp only [not_or, not_not, List.any_eq_true, not_exists]
      exact ⟨isEof, by simpa using others⟩

/-- The parser stands somewhere in the tokens, not after the last one. -/
structure Positioned (tokens : List Token) (parser : Parser) : Prop where
  split : parser.past.reverse ++ parser.rest = tokens
  some : parser.rest ≠ []

/-- The failure is an error at one of the tokens. -/
def AtToken (tokens : List Token) : Failure → Prop
  | .error error => ∃ token ∈ tokens, error.span = token.span
  | .panic | .outOfFuel => False

/-- A result after which fewer tokens are left, or an error at a token. -/
def Ends (tokens : List Token) (left consumed : Nat) :
    Except Failure (α × Parser) → Prop
  | .ok result => Positioned tokens result.2 ∧
      result.2.rest.length + consumed ≤ left
  | .error failure => AtToken tokens failure

/-- From up to `bound` tokens the computation ends well, and its result has
consumed some of them. -/
def Total (tokens : List Token) (bound consumed : Nat) (parse : Parse α) :
    Prop :=
  ∀ parser, Positioned tokens parser → parser.rest.length ≤ bound →
    Ends tokens parser.rest.length consumed (parse parser)

theorem Ends.weaken {left left' consumed' : Nat}
    {result : Except Failure (α × Parser)}
    (ends : Ends tokens left consumed result)
    (fewer : left + consumed' ≤ left' + consumed) :
    Ends tokens left' consumed' result := by
  cases result with
  | ok result => exact ⟨ends.1, by have used := ends.2; omega⟩
  | error failure => exact ends

section Rules

theorem Total.weaken {bound' consumed' : Nat} {parse : Parse α}
    (total : Total tokens bound consumed parse) (less : bound' ≤ bound)
    (fewer : consumed' ≤ consumed) :
    Total tokens bound' consumed' parse :=
  fun parser positioned short =>
    (total parser positioned (short.trans less)).weaken (by omega)

theorem total_of_empty {parse : Parse α} :
    Total tokens 0 consumed parse := by
  intro parser positioned short
  exact absurd (List.length_eq_zero_iff.mp (Nat.le_zero.mp short))
    positioned.some

theorem total_pure (value : α) :
    Total tokens bound 0 (pure value : Parse α) :=
  fun _ positioned _ => ⟨positioned, le_rfl⟩

theorem Total.bind {needed : Nat} {first : Parse α} {next : α → Parse β}
    (total : Total tokens bound consumed first)
    (rest : ∀ value,
      Total tokens (bound - consumed) (needed - consumed) (next value)) :
    Total tokens bound needed (first >>= next) := by
  intro parser positioned short
  have result := total parser positioned short
  change Ends tokens parser.rest.length needed (Parse.bind first next parser)
  unfold Parse.bind
  cases done : first parser with
  | error failure =>
      rw [done] at result
      exact result
  | ok pair =>
      rw [done] at result
      obtain ⟨there, used⟩ := result
      exact (rest pair.1 pair.2 there (by omega)).weaken (by omega)

theorem total_peek : Total tokens bound 0 peek := by
  rintro ⟨past, rest, spans, constructors⟩ positioned _
  cases rest with
  | nil => exact absurd rfl positioned.some
  | cons token rest => exact ⟨positioned, le_rfl⟩

theorem total_start : Total tokens bound 0 start :=
  total_peek.bind fun _ => total_pure _

theorem total_spans : Total tokens bound 0 spans :=
  fun _ positioned _ => ⟨positioned, le_rfl⟩

theorem total_constructors : Total tokens bound 0 constructors :=
  fun _ positioned _ => ⟨positioned, le_rfl⟩

/-- Something has been consumed once fewer tokens are left. -/
theorem total_previous (fewer : bound < tokens.length) :
    Total tokens bound 0 previous := by
  rintro ⟨past, rest, spans, constructors⟩ positioned short
  cases past with
  | nil =>
      have same : rest = tokens := positioned.split
      subst same
      exact absurd short (by simpa using fewer)
  | cons token past => exact ⟨positioned, le_rfl⟩

theorem total_check (kind : TokenKind) :
    Total tokens bound 0 (check kind) :=
  total_peek.bind fun _ => total_pure _

/-- The current token is one of the tokens. -/
theorem Positioned.current {parser : Parser} {token : Token}
    {rest : List Token} (positioned : Positioned tokens parser)
    (current : parser.rest = token :: rest) : token ∈ tokens := by
  rw [← positioned.split, current]
  simp

theorem total_error {needed : Nat} (message : String) :
    Total tokens bound needed (error message : Parse α) := by
  rintro ⟨past, rest, spans, constructors⟩ positioned _
  cases rest with
  | nil => exact absurd rfl positioned.some
  | cons token rest => exact ⟨token, positioned.current rfl, rfl⟩

theorem total_errorAt {needed : Nat} {token : Token} (member : token ∈ tokens)
    (message : String) :
    Total tokens bound needed (errorAt token message : Parse α) :=
  fun _ _ _ => ⟨token, member, rfl⟩

theorem total_literal {token : Token} (member : token ∈ tokens)
    (value : Except String α) : Total tokens bound 0 (literal token value) := by
  cases value with
  | ok value => exact total_pure value
  | error message => exact total_errorAt member message

theorem Total.delimited {constructors : Bool} {parse : Parse α}
    (total : Total tokens bound consumed parse) :
    Total tokens bound consumed (delimited constructors parse) := by
  intro parser positioned short
  have result := total { parser with constructors := constructors }
    ⟨positioned.split, positioned.some⟩ short
  unfold Parse.delimited
  cases done : parse { parser with constructors := constructors } with
  | error failure =>
      rw [done] at result
      exact result
  | ok pair =>
      rw [done] at result
      exact ⟨⟨result.1.split, result.1.some⟩, result.2⟩

theorem Total.repeated {loop : Nat → Parse α}
    (total : ∀ fuel ≤ bound, Total tokens fuel consumed (loop fuel)) :
    Total tokens bound consumed (repeated loop) :=
  fun parser positioned short =>
    total parser.rest.length short parser positioned le_rfl

theorem total_previous_bind {needed : Nat} {next : Token → Parse α}
    (fewer : bound < tokens.length)
    (rest : ∀ token ∈ tokens, Total tokens bound needed (next token)) :
    Total tokens bound needed (previous >>= next) := by
  rintro ⟨past, rest', spans, constructors⟩ positioned short
  cases past with
  | nil =>
      have same : rest' = tokens := positioned.split
      subst same
      exact absurd short (by simpa using fewer)
  | cons token past =>
      have member : token ∈ tokens := by
        rw [← positioned.split]
        simp
      exact rest token member _ positioned short

variable (single : SingleEof tokens)

include single

/-- Only the end of the input can be the last token. -/
theorem more_tokens {past rest : List Token} {token : Token}
    (split : past.reverse ++ token :: rest = tokens)
    (different : token.kind ≠ .eof) : rest ≠ [] := by
  rintro rfl
  obtain ⟨before, last, same, isEof, _⟩ := single.ends
  rw [same] at split
  obtain ⟨_, equal⟩ := List.append_inj' split rfl
  cases equal
  exact different isEof

theorem Positioned.advanced {parser : Parser} {token : Token}
    {rest : List Token} (positioned : Positioned tokens parser)
    (current : parser.rest = token :: rest)
    (different : token.kind ≠ .eof) :
    Positioned tokens
      { parser with past := token :: parser.past, rest := rest } := by
  have split := positioned.split
  rw [current] at split
  exact ⟨by simpa using split, more_tokens single split different⟩

/-- A token is consumed, unless it is the end of the input. -/
theorem total_advance_bind {needed : Nat} {next : Token → Parse α}
    (rest : ∀ token ∈ tokens, token.kind ≠ .eof →
      Total tokens (bound - 1) (needed - 1) (next token))
    (ended : ∀ token ∈ tokens, token.kind = .eof →
      Total tokens bound needed (next token)) :
    Total tokens bound needed (advance >>= next) := by
  rintro ⟨past, rest', spans, constructors⟩ positioned short
  cases rest' with
  | nil => exact absurd rfl positioned.some
  | cons token rest' =>
      have member := positioned.current rfl
      change Ends tokens _ needed (Parse.bind advance next _)
      simp only [Parse.bind, advance]
      simp only [List.length_cons] at short ⊢
      by_cases isEof : token.kind = .eof
      · rw [if_pos isEof]
        exact ended token member isEof _ positioned short
      · rw [if_neg isEof]
        have result := rest token member isEof _
          (positioned.advanced single rfl isEof) (by
            change rest'.length ≤ bound - 1
            omega)
        exact result.weaken (by dsimp only; omega)

/-- The current token is consumed at once, or something else is done. -/
theorem total_peek_cases {needed : Nat} {next : Token → Parse α}
    (cases : ∀ token ∈ tokens,
      (token.kind ≠ .eof ∧ ∃ rest : Token → Parse α,
        next token = advance >>= rest ∧
        Total tokens (bound - 1) (needed - 1) (rest token)) ∨
      Total tokens bound needed (next token)) :
    Total tokens bound needed (peek >>= next) := by
  rintro ⟨past, rest', spans, constructors⟩ positioned short
  cases rest' with
  | nil => exact absurd rfl positioned.some
  | cons token rest' =>
      change Ends tokens _ needed (next token _)
      obtain ⟨different, rest, same, total⟩ | total :=
        cases token (positioned.current rfl)
      · rw [same, run_bind]
        simp only [Parse.bind, advance, if_neg different]
        simp only [List.length_cons] at short ⊢
        have result := total _ (positioned.advanced single rfl different) (by
          change rest'.length ≤ bound - 1
          omega)
        exact result.weaken (by dsimp only; omega)
      · exact total _ positioned short

omit single in
theorem accept_run {kind : TokenKind} (notEof : kind ≠ .eof)
    {past rest : List Token} {token : Token} {spans constructors : Bool} :
    accept kind ⟨past, token :: rest, spans, constructors⟩ =
      if token.kind = kind then
        .ok (true, ⟨token :: past, rest, spans, constructors⟩)
      else .ok (false, ⟨past, token :: rest, spans, constructors⟩) := by
  simp only [accept, check, run_bind, Parse.bind, peek, run_pure]
  by_cases same : token.kind = kind
  · have isEof : token.kind ≠ .eof := same ▸ notEof
    simp only [decide_eq_true same, if_pos same, if_true, run_bind,
      Parse.bind, advance, if_neg isEof, run_pure]
  · simp only [decide_eq_false same, if_neg same, Bool.false_eq_true,
      if_false, run_pure]

theorem total_accept {needed : Nat} {kind : TokenKind}
    {next : Bool → Parse α} (notEof : kind ≠ .eof)
    (accepted : Total tokens (bound - 1) (needed - 1) (next true))
    (refused : Total tokens bound needed (next false)) :
    Total tokens bound needed (accept kind >>= next) := by
  rintro ⟨past, rest', spans, constructors⟩ positioned short
  cases rest' with
  | nil => exact absurd rfl positioned.some
  | cons token rest' =>
      rw [run_bind]
      unfold Parse.bind
      rw [accept_run notEof]
      simp only [List.length_cons] at short ⊢
      by_cases same : token.kind = kind
      · rw [if_pos same]
        have isEof : token.kind ≠ .eof := same ▸ notEof
        have result := accepted _ (positioned.advanced single rfl isEof) (by
          change rest'.length ≤ bound - 1
          omega)
        exact result.weaken (by dsimp only; omega)
      · rw [if_neg same]
        exact refused _ positioned short

theorem total_consume {needed : Nat} {kind : TokenKind} {message : String}
    {next : Token → Parse α} (notEof : kind ≠ .eof)
    (rest : ∀ token ∈ tokens,
      Total tokens (bound - 1) (needed - 1) (next token)) :
    Total tokens bound needed (consume kind message >>= next) := by
  rintro ⟨past, rest', spans, constructors⟩ positioned short
  cases rest' with
  | nil => exact absurd rfl positioned.some
  | cons token rest' =>
      by_cases same : token.kind = kind
      · have isEof : token.kind ≠ .eof := same ▸ notEof
        have run : (consume kind message >>= next)
            ⟨past, token :: rest', spans, constructors⟩ =
            next token ⟨token :: past, rest', spans, constructors⟩ := by
          simp only [consume, check, run_bind, Parse.bind, peek, run_pure,
            decide_eq_true same, if_true, advance, if_neg isEof]
        rw [run]
        simp only [List.length_cons] at short ⊢
        have result := rest token (positioned.current rfl) _
          (positioned.advanced single rfl isEof) (by
            change rest'.length ≤ bound - 1
            omega)
        exact result.weaken (by dsimp only; omega)
      · have run : (consume kind message >>= next)
            ⟨past, token :: rest', spans, constructors⟩ =
            .error (.error (token.errorAt message)) := by
          simp only [consume, check, run_bind, Parse.bind, peek, run_pure,
            decide_eq_false same, Bool.false_eq_true, if_false, error]
          rfl
        rw [run]
        exact ⟨token, positioned.current rfl, rfl⟩

omit single in
theorem total_check_bind {needed : Nat} {kind : TokenKind}
    {next : Bool → Parse α}
    (rest : ∀ found, Total tokens bound needed (next found)) :
    Total tokens bound needed (check kind >>= next) :=
  (total_check kind).bind rest

omit single in
/-- The end of the input is not consumed. -/
theorem total_consume_eof {needed : Nat} {message : String}
    {next : Token → Parse α}
    (rest : ∀ token, Total tokens bound needed (next token)) :
    Total tokens bound needed (consume .eof message >>= next) := by
  rintro ⟨past, rest', spans, constructors⟩ positioned short
  cases rest' with
  | nil => exact absurd rfl positioned.some
  | cons token rest' =>
      simp only [consume, check, run_bind, Parse.bind, peek, run_pure]
      by_cases same : token.kind = .eof
      · simp only [decide_eq_true same, if_true, advance, if_pos same]
        exact rest token _ positioned short
      · simp only [decide_eq_false same, Bool.false_eq_true, if_false, error,
          run_bind, Parse.bind, peek]
        exact ⟨token, positioned.current rfl, rfl⟩

theorem total_itemsLoop {item : Parse α} {closing : TokenKind} {most : Nat}
    (total : Total tokens most 1 item) :
    ∀ fuel ≤ most, Total tokens fuel 1 (itemsLoop item closing fuel) := by
  intro fuel
  induction fuel with
  | zero => exact fun _ => total_of_empty
  | succ fuel induction =>
      intro enough
      unfold itemsLoop
      apply (total.weaken enough le_rfl).bind
      intro value
      refine total_accept single (by decide) ?_ ?_
      · apply total_check_bind
        intro closed
        cases closed with
        | true => exact total_pure _
        | false =>
            have later := induction (by omega)
            refine Total.bind (later.weaken (by omega) (Nat.zero_le 1)) ?_
            exact fun values => total_pure _
      · apply total_check_bind
        exact fun closed => total_pure _

theorem total_items {item : Parse α} {closing : TokenKind}
    (total : Total tokens bound 1 item) :
    Total tokens bound 0 (items item closing) := by
  apply total_check_bind
  intro closed
  cases closed with
  | true => exact total_pure _
  | false =>
      apply Total.repeated
      exact fun fuel enough =>
        (total_itemsLoop single total fuel enough).weaken le_rfl
          (Nat.zero_le 1)

omit single in
theorem total_untilLoop {item : Parse α} {closing : TokenKind} {most : Nat}
    (total : Total tokens most 1 item) :
    ∀ fuel ≤ most, Total tokens fuel 0 (untilLoop item closing fuel) := by
  intro fuel
  induction fuel with
  | zero => exact fun _ => total_of_empty
  | succ fuel induction =>
      intro enough
      unfold untilLoop
      apply total_check_bind
      intro closed
      apply total_check_bind
      intro ended
      split
      · exact total_pure _
      · apply (total.weaken enough le_rfl).bind
        intro value
        have later := induction (by omega)
        refine Total.bind (later.weaken (by omega) le_rfl) ?_
        exact fun values => total_pure _

omit single in
theorem total_untilClosed {item : Parse α} {closing : TokenKind}
    (total : Total tokens bound 1 item) :
    Total tokens bound 0 (untilClosed item closing) :=
  .repeated fun fuel enough => total_untilLoop total fuel enough

end Rules

/-- Every nested entry point is total for some number of tokens. -/
structure GrammarTotal (tokens : List Token) (bound : Nat)
    (given : Grammar) : Prop where
  assignment : Total tokens bound 1 given.assignment
  or : Total tokens bound 1 given.or
  unary : Total tokens bound 1 given.unary
  declaration : Total tokens bound 1 given.declaration
  «if» : Total tokens (bound - 1) 1 given.if

section Expressions

variable {given : Grammar} (single : SingleEof tokens)
  (fewer : bound < tokens.length) (totals : GrammarTotal tokens bound given)

include fewer in
theorem total_locateExpression (node : Expr) (start : Position) :
    Total tokens bound 0 (locateExpression node start) := by
  apply total_spans.bind
  intro spans
  cases spans with
  | false => exact total_pure _
  | true => exact (total_previous fewer).bind fun last => total_pure _

include totals in
theorem total_delimitedExpression (constructors : Bool) :
    Total tokens bound 1 (parseDelimitedExpression given constructors) :=
  totals.assignment.delimited

include single totals

theorem total_expressionList {closing : TokenKind}
    (notEof : closing ≠ .eof) :
    Total tokens bound 0 (expressionList given closing) := by
  apply (total_items single (total_delimitedExpression totals true)).bind
  intro values
  refine total_consume single notEof ?_
  exact fun token member => (total_pure _).weaken (Nat.sub_le _ _) le_rfl

omit totals in
theorem total_objectKey : Total tokens bound 1 objectKey := by
  apply total_advance_bind single
  · intro token member notEof
    split
    · exact total_pure _
    · exact total_literal member _
    · exact total_errorAt member _
  · intro token member isEof
    rw [isEof]
    exact total_errorAt member _

theorem total_objectField : Total tokens bound 1 (objectField given) := by
  apply (total_objectKey single).bind
  intro key
  refine total_consume single (by decide) ?_
  intro colon _
  have value := total_delimitedExpression totals true
  refine Total.bind (value.weaken (by omega) (Nat.zero_le 1)) ?_
  exact fun value => total_pure _

theorem total_objectFields :
    Total tokens bound 0 (parseObjectFields given) := by
  apply (total_items single (total_objectField single totals)).bind
  intro fields
  refine total_consume single (by decide) ?_
  exact fun token member => total_pure _

include fewer

theorem total_object : Total tokens bound 0 (parseObject given) := by
  apply total_previous_bind fewer
  intro brace _
  apply (total_objectFields single totals).bind
  exact fun fields => total_locateExpression fewer _ _

omit totals fewer in
theorem total_connectionProtocol :
    Total tokens bound 0 connectionProtocol := by
  refine total_accept single (by decide) ?_ ?_
  · refine total_consume single (by decide) ?_
    exact fun name _ => total_pure _
  · exact total_pure _

omit fewer in
theorem total_connectionExpression (transport : Transport) :
    Total tokens bound 0 (parseConnectionExpression given transport) := by
  apply (totals.or.delimited.weaken le_rfl (Nat.zero_le 1)).bind
  intro address
  apply (total_connectionProtocol single).bind
  exact fun protocol => total_pure _

theorem total_requestConfig :
    Total tokens bound 0 (requestConfig given) := by
  refine total_accept single (by decide) ?_ ?_
  · have object := total_object single fewer totals
    refine Total.bind (object.weaken (by omega) le_rfl) ?_
    exact fun config => total_pure _
  · exact total_pure _

theorem total_requestExpression {kind : TokenKind} {method : HttpMethod}
    (known : requestMethod kind = some method) :
    Total tokens bound 0 (parseRequestExpression given kind) := by
  unfold parseRequestExpression
  rw [known]
  apply ((total_delimitedExpression totals false).weaken le_rfl
    (Nat.zero_le 1)).bind
  intro url
  apply (total_requestConfig single fewer totals).bind
  exact fun config => total_pure _

omit fewer in
theorem total_name (name : String) :
    Total tokens bound 0 (parseName given name) := by
  apply total_constructors.bind
  intro allowed
  cases allowed with
  | false => exact total_pure _
  | true =>
      refine total_accept single (by decide) ?_ ?_
      · have fields := total_objectFields single totals
        refine Total.bind (fields.weaken (by omega) le_rfl) ?_
        exact fun fields => total_pure _
      · exact total_pure _

omit fewer in
theorem total_parenthesized :
    Total tokens bound 0 (parseParenthesized given) := by
  apply ((total_delimitedExpression totals true).weaken le_rfl
    (Nat.zero_le 1)).bind
  intro inner
  refine total_consume single (by decide) ?_
  exact fun token _ => total_pure _

omit single totals fewer in
theorem total_parseLiteral {token : Token} (member : token ∈ tokens)
    (node : α → Expr) (value : Except String α) :
    Total tokens bound 0 (parseLiteral token node value) := by
  apply (total_literal member value).bind
  exact fun value => total_pure _

theorem total_primaryInner :
    Total tokens (bound + 1) 1 (parsePrimaryInner given) := by
  apply total_advance_bind single
  · intro token member notEof
    have names := total_name single totals token.lexeme
    have list : Total tokens bound 0
        (expressionList given .rightBracket) :=
      total_expressionList single totals (by decide)
    have request : ∀ {kind : TokenKind} {method : HttpMethod},
        token.kind = kind → requestMethod kind = some method →
        Total tokens bound 0 (parseRequestExpression given token.kind) := by
      rintro _ method rfl known
      exact total_requestExpression single fewer totals known
    split
    · exact total_connectionExpression single totals _
    · exact total_connectionExpression single totals _
    · exact request (by assumption) rfl
    · exact request (by assumption) rfl
    · exact request (by assumption) rfl
    · exact request (by assumption) rfl
    · exact request (by assumption) rfl
    · exact request (by assumption) rfl
    · exact total_parseLiteral member _ _
    · exact total_parseLiteral member _ _
    · exact total_parseLiteral member _ _
    · exact total_pure _
    · exact total_pure _
    · exact total_pure _
    · exact names
    · exact total_parseLiteral member _ _
    · exact total_parenthesized single totals
    · exact list.bind fun values => total_pure _
    · exact total_object single fewer totals
    · exact total_errorAt member _
  · intro token member isEof
    rw [isEof]
    exact total_errorAt member _

theorem total_primary : Total tokens (bound + 1) 1 (parsePrimary given) := by
  apply total_start.bind
  intro start
  apply (total_primaryInner single fewer totals).bind
  exact fun node => total_locateExpression fewer node start

omit fewer in
/-- Nothing is consumed when there is no postfix operator. -/
theorem total_postfix_bind {operand : Expr} {most : Nat}
    {next : Option Expr → Parse α} (short : most ≤ bound)
    (some : ∀ node, Total tokens (most - 1) 0 (next (some node)))
    (none : Total tokens most 0 (next none)) :
    Total tokens most 0 (postfixOperator given operand >>= next) := by
  have arguments : Total tokens (most - 1) 0
      (expressionList given .rightParen) :=
    (total_expressionList single totals (by decide)).weaken (by omega) le_rfl
  have subscript := total_delimitedExpression totals true
  unfold postfixOperator
  simp only [Parse.bind_assoc, Parse.ite_bind]
  refine total_accept single (by decide) ?_ ?_
  · exact arguments.bind fun values => some _
  · refine total_accept single (by decide) ?_ ?_
    · refine Total.bind (subscript.weaken (by omega) (Nat.zero_le 1)) ?_
      intro index
      refine total_consume single (by decide) ?_
      exact fun token _ => (some _).weaken (Nat.sub_le _ _) le_rfl
    · refine total_accept single (by decide) (some _) ?_
      refine total_accept single (by decide) ?_ none
      refine total_consume single (by decide) ?_
      exact fun token _ => (some _).weaken (Nat.sub_le _ _) le_rfl

theorem total_postfixLoop (start : Position) :
    ∀ (fuel : Nat) {most : Nat} (operand : Expr), most < fuel →
      most ≤ bound →
      Total tokens most 0 (postfixLoop given start fuel operand) := by
  intro fuel
  induction fuel with
  | zero =>
      intro most operand enough
      omega
  | succ fuel induction =>
      intro most operand enough short
      refine total_postfix_bind single totals short ?_ (total_pure _)
      intro node
      rcases Nat.eq_zero_or_pos most with rfl | positive
      · exact total_of_empty
      · have room : most - 1 < tokens.length := by omega
        apply (total_locateExpression room node start).bind
        exact fun node => induction node (by omega) (by omega)

theorem total_postfixed : Total tokens (bound + 1) 1 (parsePostfix given) := by
  apply total_start.bind
  intro start
  apply (total_primary single fewer totals).bind
  intro operand
  apply Total.repeated
  exact fun fuel enough => total_postfixLoop single fewer totals start
    (fuel + 1) operand (Nat.lt_succ_self fuel) enough

theorem total_unary : Total tokens (bound + 1) 1 (parseUnary given) := by
  apply total_start.bind
  intro start
  apply total_peek_cases single
  intro token _
  cases operator : unaryOperator token.kind with
  | some operator =>
      refine .inl ⟨?_, _, rfl, ?_⟩
      · intro isEof
        rw [isEof] at operator
        cases operator
      · refine Total.bind (totals.unary.weaken le_rfl (Nat.zero_le 1)) ?_
        exact fun operand => total_locateExpression fewer _ start
  | none => exact .inr (total_postfixed single fewer totals)

omit totals in
/-- The levels between a unary and a full expression. -/
theorem total_binaryLoop {operand : Parse Expr}
    {operators : List (TokenKind × BinaryOp)}
    (known : ∀ entry ∈ operators, entry.1 ≠ .eof)
    (total : Total tokens (bound + 1) 1 operand) (start : Position) :
    ∀ (fuel : Nat) {most : Nat} (left : Expr), most < fuel → most ≤ bound →
      Total tokens most 0 (binaryLoop operand operators start fuel left) := by
  intro fuel
  induction fuel with
  | zero =>
      intro most left enough
      omega
  | succ fuel induction =>
      intro most left enough short
      unfold binaryLoop nextOperator
      simp only [Parse.bind_assoc]
      apply total_peek_cases single
      intro token _
      cases found : operators.find? fun entry => entry.1 = token.kind with
      | none => exact .inr (total_pure _)
      | some entry =>
          have same : entry.1 = token.kind := by
            simpa using List.find?_some found
          refine .inl ⟨?_, _, Parse.bind_assoc _ _ _, ?_⟩
          · rw [← same]
            exact known entry (List.mem_of_find?_eq_some found)
          · have more : Total tokens (most - 1) 0 operand :=
              total.weaken (by omega) (Nat.zero_le 1)
            apply more.bind
            intro right
            rcases Nat.eq_zero_or_pos most with rfl | positive
            · exact total_of_empty
            · have room : most - 1 < tokens.length := by omega
              have located := fun node =>
                total_locateExpression room node start
              apply (located _).bind
              exact fun node => induction node (by omega) (by omega)

omit totals in
theorem total_binary {operand : Parse Expr}
    {operators : List (TokenKind × BinaryOp)}
    (known : ∀ entry ∈ operators, entry.1 ≠ .eof)
    (total : Total tokens (bound + 1) 1 operand) :
    Total tokens (bound + 1) 1 (parseBinary operand operators) := by
  apply total_start.bind
  intro start
  apply total.bind
  intro left
  apply Total.repeated
  exact fun fuel enough => total_binaryLoop single fewer known total start
    (fuel + 1) left (Nat.lt_succ_self fuel) enough

theorem total_or : Total tokens (bound + 1) 1 (parseOr given) := by
  apply total_binary single fewer (by decide)
  apply total_binary single fewer (by decide)
  apply total_binary single fewer (by decide)
  apply total_binary single fewer (by decide)
  apply total_binary single fewer (by decide)
  apply total_binary single fewer (by decide)
  exact total_unary single fewer totals

theorem total_destinationClause {most : Nat} (short : most ≤ bound + 1) :
    Total tokens most 0 (sendDestinationClause given) := by
  have destination := total_or single fewer totals
  refine total_accept single (by decide) ?_ (total_pure _)
  refine Total.bind (destination.weaken (by omega) (Nat.zero_le 1)) ?_
  exact fun destination => total_pure _

theorem total_send : Total tokens (bound + 1) 1 (parseSend given) := by
  have level := total_or single fewer totals
  apply total_start.bind
  intro start
  apply level.bind
  intro connection
  refine total_accept single (by decide) ?_ (total_pure _)
  refine Total.bind (level.weaken (by omega) (Nat.zero_le 1)) ?_
  intro data
  apply (total_destinationClause single fewer totals (by omega)).bind
  intro destination
  apply total_check_bind
  intro chained
  cases chained with
  | true => exact total_error _
  | false =>
      have located : Total tokens (bound - 1) 0
          (locateExpression (.send connection data destination) start) :=
        total_locateExpression (by omega) _ start
      exact located.weaken (by omega) le_rfl

theorem total_assignment :
    Total tokens (bound + 1) 1 (parseAssignment given) := by
  apply total_start.bind
  intro start
  apply (total_send single fewer totals).bind
  intro target
  have room : bound - 1 < tokens.length := by omega
  refine total_accept single (by decide) ?_ (total_pure _)
  rw [if_pos rfl]
  split
  · refine Total.bind (totals.assignment.weaken (by omega)
      (Nat.zero_le 1)) ?_
    exact fun value => total_locateExpression room _ start
  · apply total_previous_bind room
    exact fun sign member => total_errorAt member _

end Expressions

section Statements

variable {given : Grammar} (single : SingleEof tokens)

include single

theorem total_typeName : Total tokens bound 1 parseTypeName := by
  refine total_consume single (by decide) ?_
  intro token _
  exact total_spans.bind fun spans => total_pure _

theorem total_annotated : Total tokens bound 0 parseAnnotation := by
  have name : Total tokens (bound - 1) 1 parseTypeName :=
    total_typeName single
  refine total_accept single (by decide) ?_ (total_pure _)
  exact (name.weaken le_rfl (Nat.zero_le 1)).bind fun name => total_pure _

theorem total_typeField : Total tokens bound 1 typeField := by
  refine total_consume single (by decide) ?_
  intro name _
  refine total_consume single (by decide) ?_
  intro colon _
  have name : Total tokens (bound - 1 - 1) 1 parseTypeName :=
    total_typeName single
  exact (name.weaken le_rfl (Nat.zero_le 1)).bind fun annotated =>
    total_pure _

theorem total_type : Total tokens bound 0 parseType := by
  refine total_consume single (by decide) ?_
  intro name _
  refine total_consume single (by decide) ?_
  intro brace _
  apply (total_items single (total_typeField single)).bind
  intro fields
  refine total_consume single (by decide) ?_
  exact fun token _ => total_pure _

theorem total_parameter : Total tokens bound 1 parameterItem := by
  refine total_consume single (by decide) ?_
  intro name _
  exact (total_annotated single).bind fun annotated => total_pure _

theorem total_returned :
    Total tokens bound 0 returnAnnotation := by
  have name : Total tokens (bound - 1) 1 parseTypeName :=
    total_typeName single
  refine total_accept single (by decide) ?_ (total_pure _)
  exact (name.weaken le_rfl (Nat.zero_le 1)).bind fun name => total_pure _

omit single in
theorem total_pattern {token : Token} (member : token ∈ tokens) :
    Total tokens bound 0 (parsePattern token) := by
  unfold parsePattern
  split
  · exact (total_literal member _).bind fun value => total_pure _
  · exact (total_literal member _).bind fun value => total_pure _
  · exact total_pure _
  · exact total_pure _
  · exact total_pure _
  · split
    · exact total_pure _
    · exact total_errorAt member _
  · exact total_errorAt member _

omit single in
theorem total_locatePattern (token : Token) (pattern : Pattern) :
    Total tokens bound 0 (locatePattern token pattern) := by
  apply total_spans.bind
  intro spans
  cases spans with
  | true => exact total_pure _
  | false => exact total_pure _

theorem total_control (node : Stmt) :
    Total tokens bound 0 (parseControl node) := by
  refine total_consume single (by decide) ?_
  exact fun token _ => total_pure _

variable (totals : GrammarTotal tokens bound given)

include totals

theorem total_block : Total tokens (bound + 1) 1 (parseBlock given) := by
  refine total_consume single (by decide) ?_
  intro brace _
  apply (total_untilClosed totals.declaration).bind
  intro statements
  refine total_consume single (by decide) ?_
  exact fun token _ => total_pure _

/-- A block that stands somewhere inside of a statement. -/
theorem total_inner_block {most : Nat} (short : most ≤ bound + 1) :
    Total tokens most 0 (parseBlock given) :=
  (total_block single totals).weaken short (Nat.zero_le 1)

theorem total_function : Total tokens bound 0 (parseFunction given) := by
  refine total_consume single (by decide) ?_
  intro name _
  refine total_consume single (by decide) ?_
  intro paren _
  apply (total_items single (total_parameter single)).bind
  intro parameters
  refine total_consume single (by decide) ?_
  intro closing _
  apply (total_returned single).bind
  intro returnAnnotated
  apply (total_inner_block single totals (by omega)).bind
  exact fun body => total_pure _

theorem total_let : Total tokens bound 0 (parseLet given) := by
  refine total_consume single (by decide) ?_
  intro name _
  apply (total_annotated single).bind
  intro annotated
  refine total_consume single (by decide) ?_
  intro equal _
  refine Total.bind (totals.assignment.weaken (by omega) (Nat.zero_le 1)) ?_
  intro value
  refine total_consume single (by decide) ?_
  exact fun token _ => total_pure _

theorem total_matchArm : Total tokens bound 1 (matchArm given) := by
  apply total_advance_bind single
  · intro token member _
    apply (total_pattern member).bind
    intro pattern
    apply (total_locatePattern token pattern).bind
    intro pattern
    refine total_consume single (by decide) ?_
    intro arrow _
    apply (total_inner_block single totals (by omega)).bind
    exact fun body => total_pure _
  · intro token member isEof
    have refused : parsePattern token =
        errorAt token "expected literal pattern or '_'" := by
      unfold parsePattern
      rw [isEof]
    rw [refused, Parse.errorAt_bind]
    exact total_errorAt member _

theorem total_match : Total tokens bound 0 (parseMatch given) := by
  apply ((total_delimitedExpression totals false).weaken le_rfl
    (Nat.zero_le 1)).bind
  intro expression
  refine total_consume single (by decide) ?_
  intro brace _
  have arms : Total tokens bound 0
      (untilClosed (matchArm given) .rightBrace) :=
    total_untilClosed (total_matchArm single totals)
  refine Total.bind (arms.weaken (Nat.sub_le _ _) le_rfl) ?_
  intro arms
  refine total_consume single (by decide) ?_
  exact fun token _ => total_pure _

theorem total_elseBranch {most : Nat} (short : most ≤ bound + 1) :
    Total tokens most 0 (elseBranch given) := by
  refine total_accept single (by decide) ?_ (total_pure _)
  refine total_accept single (by decide) ?_ ?_
  · refine Total.bind (totals.if.weaken (by omega) (Nat.zero_le 1)) ?_
    exact fun branch => total_pure _
  · apply (total_inner_block single totals (by omega)).bind
    exact fun branch => total_pure _

theorem total_if : Total tokens bound 1 (parseIf given) := by
  apply (total_delimitedExpression totals false).bind
  intro condition
  apply (total_inner_block single totals (by omega)).bind
  intro thenBranch
  apply (total_elseBranch single totals (by omega)).bind
  exact fun branch => total_pure _

theorem total_while : Total tokens bound 0 (parseWhile given) := by
  apply ((total_delimitedExpression totals false).weaken le_rfl
    (Nat.zero_le 1)).bind
  intro condition
  apply (total_inner_block single totals (by omega)).bind
  exact fun body => total_pure _

theorem total_loop (loop : String → Expr → Stmt → Stmt) :
    Total tokens bound 0 (parseLoop given loop) := by
  refine total_consume single (by decide) ?_
  intro variableName _
  refine total_consume single (by decide) ?_
  intro keyword _
  have iterable := total_delimitedExpression totals false
  refine Total.bind (iterable.weaken (by omega) (Nat.zero_le 1)) ?_
  intro iterable
  apply (total_inner_block single totals (by omega)).bind
  exact fun body => total_pure _

theorem total_return : Total tokens bound 0 (parseReturn given) := by
  have value : Total tokens bound 0 (returnedExpression given) := by
    apply total_check_bind
    intro nothing
    cases nothing with
    | true => exact total_pure _
    | false =>
        exact (totals.assignment.weaken le_rfl (Nat.zero_le 1)).bind
          fun value => total_pure _
  apply value.bind
  intro value
  refine total_consume single (by decide) ?_
  exact fun token _ => total_pure _

variable (fewer : bound < tokens.length)

include fewer

theorem total_expressionStatement :
    Total tokens (bound + 1) 1 (parseExpressionStatement given) := by
  apply (total_assignment single fewer totals).bind
  intro expression
  refine total_consume single (by decide) ?_
  exact fun token _ => total_pure _

theorem total_declarationInner :
    Total tokens (bound + 1) 1 (parseDeclarationInner given) := by
  have block := total_block single totals
  have loop := total_loop single totals
  have branch := (total_if single totals).weaken le_rfl (Nat.zero_le 1)
  have statement := total_expressionStatement single totals fewer
  apply total_peek_cases single
  intro token _
  have consumed : ∀ {kind : TokenKind} {rest : Parse Stmt},
      token.kind = kind → kind ≠ .eof → Total tokens bound 0 rest →
      token.kind ≠ .eof ∧ ∃ next : Token → Parse Stmt,
        (do let _ ← advance; rest) = advance >>= next ∧
        Total tokens (bound + 1 - 1) (1 - 1) (next token) := by
    intro kind rest same notEof total
    exact ⟨same ▸ notEof, _, rfl, total⟩
  split
  · next same => exact .inl (consumed same (by decide) (total_type single))
  · next same =>
      exact .inl (consumed same (by decide) (total_function single totals))
  · next same =>
      exact .inl (consumed same (by decide) (total_let single totals))
  · next same => exact .inl (consumed same (by decide) (total_control single _))
  · next same => exact .inl (consumed same (by decide) (total_control single _))
  · exact .inr block
  · next same => exact .inl (consumed same (by decide) branch)
  · next same =>
      exact .inl (consumed same (by decide) (total_while single totals))
  · next same =>
      exact .inl (consumed same (by decide) (total_match single totals))
  · next same => exact .inl (consumed same (by decide) (loop _))
  · next same => exact .inl (consumed same (by decide) (loop _))
  · next same =>
      exact .inl (consumed same (by decide) (total_return single totals))
  · exact .inr statement

theorem total_declaration :
    Total tokens (bound + 1) 1 (parseDeclaration given) := by
  apply total_start.bind
  intro start
  apply (total_declarationInner single totals fewer).bind
  intro node
  apply total_spans.bind
  intro spans
  cases spans with
  | false => exact total_pure _
  | true =>
      have last : Total tokens (bound + 1 - 0 - 1 - 0) 0 previous :=
        total_previous fewer
      exact last.bind fun last => total_pure _

/-- One more unit of fuel is good for one more token. -/
theorem GrammarTotal.step : GrammarTotal tokens (bound + 1) given.step where
  assignment := total_assignment single fewer totals
  or := total_or single fewer totals
  unary := total_unary single fewer totals
  declaration := total_declaration single totals fewer
  «if» := total_if single totals

end Statements

/-- Less fuel is good for fewer tokens. -/
theorem GrammarTotal.weaken {given : Grammar} {bound' : Nat}
    (totals : GrammarTotal tokens bound given) (less : bound' ≤ bound) :
    GrammarTotal tokens bound' given where
  assignment := totals.assignment.weaken less le_rfl
  or := totals.or.weaken less le_rfl
  unary := totals.unary.weaken less le_rfl
  declaration := totals.declaration.weaken less le_rfl
  «if» := totals.if.weaken (Nat.sub_le_sub_right less 1) le_rfl

theorem grammarTotal (single : SingleEof tokens) :
    ∀ fuel, GrammarTotal tokens (min fuel tokens.length) (grammar fuel) := by
  intro fuel
  induction fuel with
  | zero =>
      rw [Nat.zero_min]
      exact ⟨total_of_empty, total_of_empty, total_of_empty, total_of_empty,
        total_of_empty⟩
  | succ fuel induction =>
      rcases Nat.lt_or_ge fuel tokens.length with inside | outside
      · rw [Nat.min_eq_left inside.le] at induction
        exact (induction.step single inside).weaken (Nat.min_le_left _ _)
      · obtain ⟨before, last, same, _⟩ := single.ends
        have positive : 0 < tokens.length := by simp [same]
        rw [Nat.min_eq_right outside] at induction
        have fewer := induction.weaken (Nat.sub_le tokens.length 1)
        have step := fewer.step single (by omega)
        exact step.weaken (by omega)

/-- The parser of a vector of tokens is about to read the first one. -/
theorem SingleEof.positioned (single : SingleEof tokens)
    (spans constructors : Bool) :
    Positioned tokens ⟨[], tokens, spans, constructors⟩ := by
  obtain ⟨before, last, same, _⟩ := single.ends
  exact ⟨rfl, by simp [same]⟩

theorem total_program (single : SingleEof tokens) :
    Total tokens tokens.length 0
      (parseProgram (grammar (tokens.length + 1))) := by
  have totals := grammarTotal single (tokens.length + 1)
  rw [Nat.min_eq_right (Nat.le_succ _)] at totals
  apply (total_untilClosed totals.declaration).bind
  exact fun statements => total_pure _

theorem total_expressionComplete (single : SingleEof tokens) :
    Total tokens tokens.length 0
      (parseExpressionComplete (grammar (tokens.length + 1))) := by
  have totals := grammarTotal single (tokens.length + 1)
  rw [Nat.min_eq_right (Nat.le_succ _)] at totals
  refine Total.bind (totals.assignment.weaken le_rfl (Nat.zero_le 1)) ?_
  intro node
  apply total_consume_eof
  exact fun token => total_pure _

/-- How parsing a vector of tokens may end. -/
def ParsesOrFails (tokens : List Token) (result : Except Failure α) : Prop :=
  (∃ tree, result = .ok tree) ∨
    ∃ error : ParseError, result = .error (.error error) ∧
      ∃ token ∈ tokens, error.span = token.span

theorem parsesOrFails {parse : Parse α} {parser : Parser}
    (total : Total tokens tokens.length 0 parse)
    (positioned : Positioned tokens parser)
    (short : parser.rest.length ≤ tokens.length) :
    ParsesOrFails tokens ((parse parser).map Prod.fst) := by
  have ends := total parser positioned short
  cases done : parse parser with
  | ok result => exact .inl ⟨result.1, rfl⟩
  | error failure =>
      rw [done] at ends
      cases failure with
      | error error => exact .inr ⟨error, rfl, ends⟩
      | panic => exact ends.elim
      | outOfFuel => exact ends.elim

/-- A parser is made of every vector that ends with the only end of the
input, and of no other one; it parses the vector or reports an error at one of
its tokens. -/
theorem parser_total (tokens : List Token) :
    (SingleEof tokens ↔ ∃ parser, Parser.new tokens = .ok parser) ∧
    ∀ parser, Parser.new tokens = .ok parser → ∀ spans : Bool,
      ParsesOrFails tokens { parser with spans := spans }.parseProgram ∧
      ParsesOrFails tokens
        { parser with spans := spans }.parseExpressionComplete := by
  constructor
  · constructor
    · exact fun single => ⟨_, new_ok_iff.mpr ⟨single, rfl⟩⟩
    · rintro ⟨parser, same⟩
      exact (new_ok_iff.mp same).1
  · intro parser same spans
    obtain ⟨single, rfl⟩ := new_ok_iff.mp same
    have positioned := single.positioned spans true
    exact ⟨parsesOrFails (total_program single) positioned le_rfl,
      parsesOrFails (total_expressionComplete single) positioned le_rfl⟩

end NetLang
