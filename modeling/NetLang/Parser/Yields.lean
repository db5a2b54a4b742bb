import NetLang.Lexer.Spacing
import NetLang.Parser.Statement
import NetLang.Syntax.Legible

/-!
# What parsers yield

A predicate on what a computation of the parser returns, from the tokens of a
source and without locations.
-/

namespace NetLang

open Parse

/-- The lexeme of a name or a float has no character with another meaning. -/
def Token.Lexical (token : Token) : Prop :=
  token.kind = .identifier ∨ token.kind = .float → PlainName token.lexeme

section Tokens

theorem named_bytes {kind : TokenKind} {pattern : Regex UInt8}
    {text : List UInt8}
    (member : (pattern, RuleAction.ret (.token kind)) ∈ initialRules)
    (found : pattern.Matches text)
    (named : kind = .identifier ∨ kind = .float) :
    ∀ byte ∈ text, Flex.namePart byte = true ∨ byte = 46 := by
  simp only [initialRules, List.mem_append, List.mem_cons, List.mem_map,
    List.not_mem_nil, Prod.mk.injEq, reduceCtorEq, and_false, or_false,
    false_or, RuleAction.ret.injEq, NetTokenKind.token.injEq] at member
  obtain ⟨⟨spelling, kind'⟩, member, rfl, rfl⟩ | member := member
  · have other : ∀ entry ∈ spellings,
        ¬ (entry.2 = .identifier ∨ entry.2 = .float) := by decide
    exact absurd named (other _ member)
  · obtain ⟨_, rfl⟩ | ⟨rfl, rfl⟩ | ⟨_, rfl⟩ | ⟨rfl, rfl⟩ | ⟨_, rfl⟩ := member
    · exact absurd named (by decide)
    · exact (float_parts found).2
    · exact absurd named (by decide)
    · exact (identifier_parts found).2
    · exact absurd named (by decide)

theorem Munched.named {bytes : List UInt8}
    {items : List (TokenKind × List UInt8)} (munched : Munched bytes items)
    {item : TokenKind × List UInt8} (member : item ∈ items)
    (named : item.1 = .identifier ∨ item.1 = .float) :
    ∀ byte ∈ item.2, Flex.namePart byte = true ∨ byte = 46 := by
  induction munched with
  | last =>
      rw [List.mem_singleton] at member
      subst member
      exact absurd named (by decide)
  | next _ selects _ induction =>
      rcases List.mem_cons.mp member with rfl | later
      · obtain ⟨pattern, inside, found⟩ := earliestRule_some selects.earliest
        exact named_bytes inside found named
      · exact induction later

theorem tokenize_lexical {source : String} {tokens : List Token}
    (lexed : tokenize source = .ok tokens) :
    ∀ token ∈ tokens, token.Lexical := by
  intro token member named c separates inside
  have plain := (tokenize_munched lexed).1.named
    (List.mem_map_of_mem member) named
  have bytes : token.item.2 = token.lexeme.toList.flatMap
      String.utf8EncodeChar := by
    rw [← textBytes_ofList, String.ofList_toList]
    rfl
  rw [bytes] at plain
  have encoded : ∀ byte ∈ String.utf8EncodeChar c,
      Flex.namePart byte = true ∨ byte = 46 :=
    fun byte member => plain byte (List.mem_flatMap.mpr ⟨c, inside, member⟩)
  simp only [List.mem_cons, List.not_mem_nil, or_false] at separates
  obtain rfl | rfl | rfl | rfl := separates
  · exact absurd (encoded 10 (by decide)) (by decide)
  · exact absurd (encoded 32 (by decide)) (by decide)
  · exact absurd (encoded 58 (by decide)) (by decide)
  · exact absurd (encoded 45 (by decide)) (by decide)

end Tokens

section Floats

theorem ofFields_positive {low : Nat} (short : low < 2 ^ 63) :
    (Binary64.ofFields false low).negative = false := by
  simp only [Binary64.negative, Binary64.ofFields, Bool.false_eq_true,
    if_false, Nat.zero_add, BitVec.msb_eq_decide, BitVec.toNat_ofNat,
    decide_eq_false_iff_not, not_le]
  rw [Nat.mod_eq_of_lt (by omega)]
  exact short

theorem round_positive {value : ℚ} (positive : 0 ≤ value) :
    (Binary64.round false value).negative = false := by
  have sign : decide (value < 0) = false :=
    decide_eq_false (not_lt.mpr positive)
  unfold Binary64.round
  split
  · exact ofFields_positive (by norm_num)
  · extract_lets numerator scale rounded low
    rw [sign]
    split
    · exact ofFields_positive (by norm_num)
    · next small =>
        exact ofFields_positive (lt_trans (not_le.mp small) (by norm_num))

theorem decimalValue_positive {whole fraction : List Char} {exponent : Int}
    {value : ℚ} (read : decimalValue whole fraction exponent = some value) :
    0 ≤ value := by
  obtain ⟨digits, _, result⟩ := Option.bind_eq_some_iff.mp read
  rw [← Option.some.inj result]
  positivity

theorem parseDecimal_positive {text : List Char} {value : ℚ}
    (read : parseDecimal text = some value) : 0 ≤ value := by
  obtain ⟨exponent, _, result⟩ := Option.bind_eq_some_iff.mp read
  exact decimalValue_positive result

theorem splitSign_unsigned {text : List Char} (unsigned : '-' ∉ text) :
    ∃ magnitude, splitSign text = (false, magnitude) := by
  unfold splitSign
  split
  · exact absurd (List.mem_cons_self ..) unsigned
  · exact ⟨_, rfl⟩
  · exact ⟨_, rfl⟩

/-- Without a sign, a finite number is not negative. -/
theorem parseFloat_positive {text : List Char} {value : Binary64}
    (unsigned : '-' ∉ text) (read : parseFloat text = some value)
    (finite : value.isFinite = true) : value.negative = false := by
  obtain ⟨magnitude, sign⟩ := splitSign_unsigned unsigned
  unfold parseFloat at read
  rw [sign] at read
  dsimp only at read
  split at read
  · cases read
    exact absurd finite (by decide)
  · cases read
    exact absurd finite (by decide)
  · cases read
    exact absurd finite (by decide)
  · obtain ⟨number, decimal, rounded⟩ := Option.map_eq_some_iff.mp read
    rw [if_neg Bool.false_ne_true] at rounded
    rw [← rounded]
    exact round_positive (parseDecimal_positive decimal)

theorem Token.float_legible {token : Token} {value : Binary64}
    (lexical : token.Lexical) (float : token.kind = .float)
    (read : token.float = .ok value) : (Expr.float value).Legible := by
  unfold Token.float at read
  split at read
  · cases read
  · next parsed =>
      split at read
      · next finite =>
          cases read
          exact .float finite (parseFloat_positive
            (lexical (.inr float) '-' (by decide)) parsed finite)
      · cases read

end Floats

/-- The parser keeps no locations, and its tokens are those of a source. -/
structure Parser.Lexical (parser : Parser) : Prop where
  bare : parser.spans = false
  past : ∀ token ∈ parser.past, token.Lexical
  rest : ∀ token ∈ parser.rest, token.Lexical

variable {α β : Type}

/-- Whatever the computation returns satisfies the predicate. -/
def Yields (post : α → Prop) (parse : Parse α) : Prop :=
  ∀ parser : Parser, parser.Lexical → ∀ result, parse parser = .ok result →
    post result.1 ∧ result.2.Lexical

/-- Nothing is said about what the computation returns. -/
abbrev Passes (parse : Parse α) : Prop :=
  Yields (fun _ => True) parse

section Rules

variable {post : α → Prop} {post' : β → Prop} {parse other : Parse α}

theorem yields_pure {value : α} (holds : post value) :
    Yields post (pure value) := by
  intro parser lexical result done
  cases done
  exact ⟨holds, lexical⟩

theorem yields_stop (failure : Failure) : Yields post (stop failure) := by
  intro parser _ result done
  cases done

theorem Yields.bind {next : α → Parse β} (first : Yields post parse)
    (rest : ∀ value, post value → Yields post' (next value)) :
    Yields post' (parse >>= next) := by
  intro parser lexical result done
  rw [run_bind] at done
  unfold Parse.bind at done
  cases ran : parse parser with
  | error failure =>
      rw [ran] at done
      cases done
  | ok middle =>
      rw [ran] at done
      obtain ⟨holds, lexical'⟩ := first parser lexical middle ran
      exact rest middle.1 holds middle.2 lexical' result done

theorem yields_if {condition : Prop} [Decidable condition]
    (yes : Yields post parse) (no : Yields post other) :
    Yields post (if condition then parse else other) := by
  split
  · exact yes
  · exact no

theorem yields_peek : Yields Token.Lexical peek := by
  rintro ⟨past, rest, spans, constructors⟩ lexical result done
  cases rest with
  | nil => cases done
  | cons token rest =>
      cases done
      exact ⟨lexical.rest _ (List.mem_cons_self ..), lexical⟩

theorem yields_previous : Yields Token.Lexical previous := by
  rintro ⟨past, rest, spans, constructors⟩ lexical result done
  cases past with
  | nil => cases done
  | cons token past =>
      cases done
      exact ⟨lexical.past _ (List.mem_cons_self ..), lexical⟩

theorem yields_advance : Yields Token.Lexical advance := by
  rintro ⟨past, rest, spans, constructors⟩ lexical result done
  cases rest with
  | nil => cases done
  | cons token rest =>
      have current := lexical.rest _ (List.mem_cons_self ..)
      simp only [advance] at done
      split at done
      · cases done
        exact ⟨current, lexical⟩
      · cases done
        exact ⟨current, lexical.bare,
          List.forall_mem_cons.mpr ⟨current, lexical.past⟩,
          fun token member => lexical.rest token (.tail _ member)⟩

theorem passes_start : Passes start :=
  yields_peek.bind fun _ _ => yields_pure trivial

theorem passes_check (kind : TokenKind) : Passes (check kind) :=
  yields_peek.bind fun _ _ => yields_pure trivial

theorem passes_accept (kind : TokenKind) : Passes (accept kind) := by
  apply (passes_check kind).bind
  intro found _
  apply yields_if
  · exact yields_advance.bind fun _ _ => yields_pure trivial
  · exact yields_pure trivial

theorem yields_errorAt (token : Token) (message : String) :
    Yields post (errorAt token message) :=
  yields_stop _

theorem yields_error (message : String) : Yields post (error message) :=
  yields_peek.bind fun _ _ => yields_errorAt _ _

/-- The token that is consumed has the kind that was asked for. -/
theorem yields_consume (kind : TokenKind) (message : String) :
    Yields (fun token => token.Lexical ∧ token.kind = kind)
      (consume kind message) := by
  intro parser lexical result done
  obtain ⟨past, rest, spans, constructors⟩ := parser
  cases rest with
  | nil => cases done
  | cons token rest =>
      simp only [consume, check, run_bind, Parse.bind, peek, run_pure] at done
      by_cases same : token.kind = kind
      · simp only [decide_eq_true same, if_true] at done
        obtain ⟨_, lexical'⟩ := yields_advance _ lexical result done
        have current : result.1 = token := by
          simp only [advance] at done
          split at done <;> cases done <;> rfl
        rw [current]
        exact ⟨⟨lexical.rest _ (List.mem_cons_self ..), same⟩, lexical'⟩
      · simp only [decide_eq_false same, Bool.false_eq_true, if_false] at done
        have fails : Yields
            (fun token : Token => token.Lexical ∧ token.kind = kind)
            (error message) := yields_error message
        exact fails _ lexical result done

theorem yields_literal (token : Token) (value : Except String α) :
    Yields (fun read => value = .ok read) (literal token value) := by
  cases value with
  | ok value => exact yields_pure rfl
  | error message => exact yields_errorAt _ _

theorem yields_spans {next : Bool → Parse α}
    (rest : Yields post (next false)) : Yields post (spans >>= next) := by
  intro parser lexical result done
  rw [run_bind] at done
  simp only [Parse.bind, spans, lexical.bare] at done
  exact rest parser lexical result done

theorem passes_constructors : Passes constructors := by
  intro parser lexical result done
  cases done
  exact ⟨trivial, lexical⟩

theorem Yields.delimited {constructors : Bool} (yields : Yields post parse) :
    Yields post (delimited constructors parse) := by
  intro parser lexical result done
  unfold Parse.delimited at done
  cases ran : parse { parser with constructors := constructors } with
  | error failure =>
      rw [ran] at done
      cases done
  | ok middle =>
      rw [ran] at done
      cases done
      obtain ⟨holds, lexical'⟩ := yields
        { parser with constructors := constructors }
        ⟨lexical.bare, lexical.past, lexical.rest⟩ middle ran
      exact ⟨holds, lexical'.bare, lexical'.past, lexical'.rest⟩

theorem Yields.repeated {loop : Nat → Parse α}
    (yields : ∀ fuel, Yields post (loop fuel)) :
    Yields post (repeated loop) :=
  fun parser lexical => yields parser.rest.length parser lexical

theorem Yields.items {closing : TokenKind} (item : Yields post parse) :
    Yields (fun values => ∀ value ∈ values, post value)
      (items parse closing) := by
  have loop : ∀ fuel, Yields (fun values => ∀ value ∈ values, post value)
      (itemsLoop parse closing fuel) := by
    intro fuel
    induction fuel with
    | zero => exact yields_stop _
    | succ fuel induction =>
        apply item.bind
        intro value holds
        apply (passes_accept .comma).bind
        intro more _
        apply (passes_check closing).bind
        intro closed _
        apply yields_if
        · apply induction.bind
          intro values all
          exact yields_pure (List.forall_mem_cons.mpr ⟨holds, all⟩)
        · exact yields_pure (by simpa using holds)
  apply (passes_check closing).bind
  intro closed _
  exact yields_if (yields_pure (by simp)) (.repeated loop)

theorem Yields.untilClosed {closing : TokenKind} (item : Yields post parse) :
    Yields (fun values => ∀ value ∈ values, post value)
      (untilClosed parse closing) := by
  apply Yields.repeated
  intro fuel
  induction fuel with
  | zero => exact yields_stop _
  | succ fuel induction =>
      apply (passes_check closing).bind
      intro closed _
      apply (passes_check .eof).bind
      intro ended _
      apply yields_if
      · exact yields_pure (by simp)
      · apply item.bind
        intro value holds
        apply induction.bind
        intro values all
        exact yields_pure (List.forall_mem_cons.mpr ⟨holds, all⟩)

end Rules

end NetLang
