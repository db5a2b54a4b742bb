import NetLang.Lexer.Text

/-!
# What the scanner skips and finds

Between two tokens the scanner skips whitespace and complete comments only,
and the text of a token begins and ends with ASCII bytes.
-/

namespace NetLang

/-- Whitespace and complete comments, given the bytes that follow them. -/
inductive Trivia (after : List UInt8) : List UInt8 → Prop where
  | none : Trivia after []
  | space {byte : UInt8} {rest : List UInt8}
      (white : byte ∈ letters " \t\r\n") :
      Trivia after rest → Trivia after (byte :: rest)
  | line {body rest : List UInt8} (inside : 10 ∉ body)
      (ends : ∀ byte ∈ (rest ++ after).head?, byte = 10) :
      Trivia after rest → Trivia after (letters "//" ++ body ++ rest)
  | block {body rest : List UInt8}
      (inside : ¬ letters "*/" <:+: body ++ letters "*") :
      Trivia after rest →
      Trivia after (letters "/*" ++ body ++ letters "*/" ++ rest)

theorem Trivia.spaces {after text rest : List UInt8}
    (white : ∀ byte ∈ text, byte ∈ letters " \t\r\n")
    (trivia : Trivia after rest) : Trivia after (text ++ rest) := by
  induction text with
  | nil => exact trivia
  | cons byte text induction =>
      rw [List.forall_mem_cons] at white
      exact .space white.1 (induction white.2)

section Rules

variable {pattern : Regex UInt8} {text : List UInt8}

theorem spelling_bounded {spelling : String} {kind : TokenKind}
    (member : (spelling, kind) ∈ spellings) : Bounded (letters spelling) := by
  have every : ∀ entry ∈ spellings, letters entry.1 ≠ [] ∧
      ∀ byte ∈ letters entry.1, byte < 128 := by
    decide +kernel
  obtain ⟨filled, ascii⟩ := every _ member
  exact bounded_of_forall filled ascii

theorem digit_ascii {byte : UInt8} (digit : Flex.digit byte = true) :
    byte < 128 := by
  simp only [Flex.digit, Bool.and_eq_true, decide_eq_true_eq] at digit
  exact UInt8.lt_of_le_of_lt digit.2 (by decide)

theorem namePart_ascii {byte : UInt8} (part : Flex.namePart byte = true) :
    byte < 128 := by
  simp only [Flex.namePart, Flex.nameStart, Bool.or_eq_true,
    Bool.and_eq_true, decide_eq_true_eq, beq_iff_eq] at part
  obtain ((small | large) | rfl) | digit := part
  · exact UInt8.lt_of_le_of_lt small.2 (by decide)
  · exact UInt8.lt_of_le_of_lt large.2 (by decide)
  · decide
  · exact digit_ascii digit

theorem digits_ascii (found : Flex.digits.Matches text) :
    text ≠ [] ∧ ∀ byte ∈ text, byte < 128 := by
  obtain ⟨filled, every⟩ := Regex.matches_plus_symbol.mp found
  exact ⟨filled, fun byte member => digit_ascii (every byte member)⟩

theorem digits_bounded {back : List UInt8} (found : Flex.digits.Matches text)
    (ascii : ∀ byte ∈ back, byte < 128) : Bounded (text ++ back) := by
  obtain ⟨filled, every⟩ := digits_ascii found
  apply bounded_of_forall (by simp [filled])
  intro byte member
  cases List.mem_append.mp member with
  | inl front => exact every byte front
  | inr back => exact ascii byte back

theorem duration_bounded (found : Flex.duration.Matches text) :
    Bounded text := by
  obtain ⟨front, back, rfl, digits, units⟩ := Regex.matches_seq.mp found
  apply digits_bounded digits
  simp only [Regex.matches_alt, Flex.word, Regex.matches_literal] at units
  obtain rfl | rfl | rfl := units <;> decide +kernel

theorem float_bounded (found : Flex.float.Matches text) : Bounded text := by
  obtain ⟨front, back, rfl, digits, rest⟩ := Regex.matches_seq.mp found
  apply digits_bounded digits
  obtain ⟨point, fraction, rfl, dot, digits'⟩ := Regex.matches_seq.mp rest
  rw [Flex.word, Regex.matches_literal] at dot
  subst dot
  intro byte member
  cases List.mem_append.mp member with
  | inl point =>
      have every : ∀ byte ∈ letters ".", byte < 128 := by
        decide +kernel
      exact every byte point
  | inr fraction => exact (digits_ascii digits').2 byte fraction

theorem identifier_bounded (found : Flex.identifier.Matches text) :
    Bounded text := by
  obtain ⟨front, back, rfl, start, parts⟩ := Regex.matches_seq.mp found
  obtain ⟨byte, first, rfl⟩ := Regex.matches_symbol.mp start
  apply bounded_of_forall (by simp)
  intro other member
  apply namePart_ascii
  cases List.mem_append.mp member with
  | inl front =>
      cases List.mem_singleton.mp front
      simp [Flex.namePart, first]
  | inr back => exact Regex.matches_star_symbol.mp parts other back

theorem string_bounded {escapes : UInt8 → Bool}
    (found : (Flex.string escapes).Matches text) : Bounded text := by
  obtain ⟨front, rest, rfl, quote, inside⟩ := Regex.matches_seq.mp found
  obtain ⟨body, back, rfl, _, quote'⟩ := Regex.matches_seq.mp inside
  rw [Flex.word, Regex.matches_literal] at quote quote'
  subst quote quote'
  exact ⟨⟨34, body ++ letters "\"", rfl, by decide⟩,
    ⟨letters "\"" ++ body, 34, by simp [letters], by decide⟩⟩

/-- The text of a token. -/
theorem token_bounded {kind : TokenKind}
    (member : (pattern, RuleAction.ret (.token kind)) ∈ initialRules)
    (found : pattern.Matches text) : kind ≠ .eof ∧ Bounded text := by
  simp only [initialRules, List.mem_append, List.mem_cons, List.mem_map,
    List.not_mem_nil, Prod.mk.injEq, reduceCtorEq, and_false, or_false,
    false_or, RuleAction.ret.injEq, NetTokenKind.token.injEq] at member
  obtain ⟨⟨spelling, kind'⟩, member, rfl, rfl⟩ | member := member
  · have plain : ∀ entry ∈ spellings, entry.2 ≠ .eof := by decide
    rw [Flex.word, Regex.matches_literal] at found
    subst found
    exact ⟨plain _ member, spelling_bounded member⟩
  · obtain ⟨rfl, rfl⟩ | ⟨rfl, rfl⟩ | ⟨rfl, rfl⟩ | ⟨rfl, rfl⟩ | ⟨rfl, rfl⟩ :=
      member
    · exact ⟨by decide, duration_bounded found⟩
    · exact ⟨by decide, float_bounded found⟩
    · obtain ⟨filled, ascii⟩ := digits_ascii found
      exact ⟨by decide, bounded_of_forall filled ascii⟩
    · exact ⟨by decide, identifier_bounded found⟩
    · exact ⟨by decide, string_bounded found⟩

/-- The rules that skip text outside comments. -/
theorem initial_skip (member : (pattern, RuleAction.skip) ∈ initialRules) :
    pattern = .plus (.symbol (Flex.oneOf " \t\r\n")) ∨
      pattern = .seq (Flex.word "//") (.star (.symbol (Flex.noneOf "\n"))) := by
  simpa [initialRules] using member

theorem initial_openComment
    (member : (pattern, RuleAction.openComment) ∈ initialRules) :
    pattern = Flex.word "/*" := by
  simpa [initialRules] using member

theorem initial_begin {condition : StartCondition} :
    (pattern, RuleAction.begin condition) ∉ initialRules := by
  simp [initialRules]

theorem comment_rule {action : RuleAction}
    (member : (pattern, action) ∈ commentRules) :
    pattern = Flex.word "*/" ∧ action = .begin .initial ∨
      action = .skip ∧
        (pattern = .plus (.symbol (Flex.noneOf "*\n")) ∨
          pattern = Flex.word "*" ∨ pattern = Flex.word "\n") := by
  simp only [commentRules, List.mem_cons, List.not_mem_nil, Prod.mk.injEq,
    or_false] at member
  obtain closing | ⟨same, skips⟩ | ⟨same, skips⟩ | ⟨same, skips⟩ := member
  · exact .inl closing
  · exact .inr ⟨skips, .inl same⟩
  · exact .inr ⟨skips, .inr (.inl same)⟩
  · exact .inr ⟨skips, .inr (.inr same)⟩

theorem rules_filled {condition : StartCondition} :
    ∀ rule ∈ condition.rules, ¬ rule.1.Matches [] := by
  have every : ∀ rule ∈ condition.rules, rule.1.nullable = false := by
    cases condition <;> decide +kernel
  intro rule member
  rw [← Regex.nullable_iff, every rule member]
  exact Bool.false_ne_true

/-- A single byte is matched by some rule. -/
theorem rules_total (condition : StartCondition) (byte : UInt8) :
    ∃ rule ∈ condition.rules, rule.1.Matches [byte] := by
  cases condition with
  | initial =>
      by_cases newline : byte = 10
      · refine ⟨(.plus (.symbol (Flex.oneOf " \t\r\n")), .skip), ?_, ?_⟩
        · simp [StartCondition.rules, initialRules]
        · rw [Regex.matches_plus_symbol]
          subst newline
          simp
          decide
      · refine ⟨(.symbol (Flex.noneOf "\n"), .ret .unexpectedCharacter), ?_,
          ?_⟩
        · simp [StartCondition.rules, initialRules]
        · apply Regex.Matches.symbol
          simpa [Flex.noneOf, letters] using newline
  | comment =>
      by_cases star : byte = 42
      · refine ⟨(Flex.word "*", .skip), ?_, ?_⟩
        · simp [StartCondition.rules, commentRules]
        · subst star
          simp [Flex.word, letters]
      · by_cases newline : byte = 10
        · refine ⟨(Flex.word "\n", .skip), ?_, ?_⟩
          · simp [StartCondition.rules, commentRules]
          · subst newline
            simp [Flex.word, letters]
        · refine ⟨(.plus (.symbol (Flex.noneOf "*\n")), .skip), ?_, ?_⟩
          · simp [StartCondition.rules, commentRules]
          · rw [Regex.matches_plus_symbol]
            simpa [Flex.noneOf, letters] using ⟨star, newline⟩

end Rules

end NetLang
