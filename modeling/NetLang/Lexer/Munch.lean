import NetLang.Lexer.Places

/-!
# What the scanner selects

A token is the longest match of a rule.  No rule but those of trivia and
strings matches whitespace, so that a token is selected whatever follows it
after whitespace, and trivia is skipped whatever follows the next token.
-/

namespace NetLang

def white (byte : UInt8) : Prop :=
  byte ∈ letters " \t\r\n"

instance (byte : UInt8) : Decidable (white byte) :=
  inferInstanceAs (Decidable (byte ∈ letters " \t\r\n"))

theorem white_iff {byte : UInt8} :
    white byte ↔ byte = 32 ∨ byte = 9 ∨ byte = 13 ∨ byte = 10 := by
  simp [white, letters]

/-- The bytes of a token that is no string; a slash is a token of its own. -/
structure Solid (text : List UInt8) : Prop where
  plain : ∀ byte ∈ text, ¬ white byte ∧ byte ≠ 34
  slash : text.head? = some 47 → text = [47]

theorem spelling_solid {spelling : String} {kind : TokenKind}
    (member : (spelling, kind) ∈ spellings) : Solid (letters spelling) := by
  have every : ∀ entry ∈ spellings,
      (∀ byte ∈ letters entry.1, ¬ white byte ∧ byte ≠ 34) ∧
        ((letters entry.1).head? = some 47 → letters entry.1 = [47]) := by
    decide +kernel
  obtain ⟨plain, slash⟩ := every _ member
  exact ⟨plain, slash⟩

theorem namePart_solid {byte : UInt8} (part : Flex.namePart byte = true) :
    ¬ white byte ∧ byte ≠ 34 ∧ byte ≠ 47 := by
  rw [white_iff]
  refine ⟨?_, ?_, ?_⟩
  · intro spaced
    obtain rfl | rfl | rfl | rfl := spaced <;> exact absurd part (by decide)
  · intro same
    subst same
    exact absurd part (by decide)
  · intro same
    subst same
    exact absurd part (by decide)

theorem solid_of_forall {text : List UInt8}
    (parts : ∀ byte ∈ text, Flex.namePart byte = true ∨ byte = 46) :
    Solid text := by
  have every : ∀ byte ∈ text, ¬ white byte ∧ byte ≠ 34 ∧ byte ≠ 47 := by
    intro byte member
    cases parts byte member with
    | inl part => exact namePart_solid part
    | inr point =>
        subst point
        decide
  refine ⟨fun byte member => ⟨(every byte member).1, (every byte member).2.1⟩,
    ?_⟩
  intro head
  exact absurd rfl (every 47 (List.mem_of_head? head)).2.2

section Strings

variable {escapes escapes' : UInt8 → Bool} {byte : UInt8}
  {body rest : List UInt8}

/-- A byte of a string, or a backslash and the byte that it escapes. -/
theorem stringBody_cons :
    (Flex.stringBody escapes).Matches (byte :: rest) ↔
      (Flex.noneOf "\"\\\n\r" byte = true ∧
        (Flex.stringBody escapes).Matches rest) ∨
      (byte = 92 ∧ ∃ code tail, rest = code :: tail ∧ escapes code = true ∧
        (Flex.stringBody escapes).Matches tail) := by
  rw [Flex.stringBody, Regex.matches_star_cons]
  constructor
  · rintro ⟨front, back, rfl, first, later⟩
    cases Regex.matches_alt.mp first with
    | inl plain =>
        obtain ⟨same, accepted, whole⟩ := Regex.matches_symbol.mp plain
        cases whole
        exact .inl ⟨accepted, later⟩
    | inr escape =>
        obtain ⟨slash, code, split, literal, coded⟩ :=
          Regex.matches_seq.mp escape
        rw [Flex.word, Regex.matches_literal] at literal
        obtain ⟨same, accepted, whole⟩ := Regex.matches_symbol.mp coded
        subst literal whole
        have parts : byte = 92 ∧ front = [same] := by
          simpa [letters] using split
        obtain ⟨rfl, rfl⟩ := parts
        exact .inr ⟨rfl, same, back, rfl, accepted, later⟩
  · rintro (⟨accepted, later⟩ | ⟨rfl, code, tail, rfl, accepted, later⟩)
    · exact ⟨[], rest, rfl, .left (.symbol accepted), later⟩
    · refine ⟨[code], tail, rfl, .right ?_, later⟩
      have escape : (Flex.word "\\").Matches [92] := by
        simp [Flex.word, letters]
      exact .seq escape (.symbol accepted)

theorem stringBody_nil : (Flex.stringBody escapes).Matches [] :=
  .done

/-- A complete string is no part of a longer one. -/
theorem stringBody_closed (found : (Flex.stringBody escapes).Matches body) :
    ¬ (Flex.stringBody escapes').Matches (body ++ 34 :: rest) := by
  intro longer
  induction found' : body.length using Nat.strong_induction_on
    generalizing body with
  | _ length induction =>
      cases body with
      | nil =>
          cases stringBody_cons.mp longer with
          | inl plain => exact absurd plain.1 (by decide)
          | inr escape => exact absurd escape.1 (by decide)
      | cons byte body =>
          rw [List.cons_append, stringBody_cons] at longer
          rw [stringBody_cons] at found
          cases found with
          | inl plain =>
              cases longer with
              | inl plain' =>
                  exact induction body.length (by simp [← found']) plain.2
                    plain'.2 rfl
              | inr escape =>
                  rw [escape.1] at plain
                  exact absurd plain.1 (by decide)
          | inr escape =>
              obtain ⟨rfl, code, tail, rfl, _, later⟩ := escape
              cases longer with
              | inl plain => exact absurd plain.1 (by decide)
              | inr escape =>
                  obtain ⟨_, code', tail', same, _, later'⟩ := escape
                  injection same with _ same
                  subst same
                  refine induction tail.length ?_ later later' rfl
                  simp only [List.length_cons] at found'
                  omega

theorem string_matches {text : List UInt8} :
    (Flex.string escapes).Matches text ↔
      ∃ body, text = 34 :: (body ++ [34]) ∧
        (Flex.stringBody escapes).Matches body := by
  have quote : letters "\"" = [34] := by decide
  rw [Flex.string, Regex.matches_seq]
  constructor
  · rintro ⟨front, back, rfl, opens, inside⟩
    obtain ⟨body, last, rfl, found, closes⟩ := Regex.matches_seq.mp inside
    rw [Flex.word, Regex.matches_literal, quote] at opens closes
    subst opens closes
    exact ⟨body, rfl, found⟩
  · rintro ⟨body, rfl, found⟩
    refine ⟨[34], body ++ [34], rfl, ?_, ?_⟩
    · rw [Flex.word, Regex.matches_literal, quote]
    · refine .seq found ?_
      rw [Flex.word, Regex.matches_literal, quote]

theorem unterminatedString_matches {text : List UInt8} :
    (Flex.unterminatedString escapes).Matches text ↔
      ∃ body, text = 34 :: body ∧
        (Flex.stringBody escapes).Matches body := by
  have quote : letters "\"" = [34] := by decide
  rw [Flex.unterminatedString, Regex.matches_seq]
  constructor
  · rintro ⟨front, back, rfl, opens, found⟩
    rw [Flex.word, Regex.matches_literal, quote] at opens
    subst opens
    exact ⟨back, rfl, found⟩
  · rintro ⟨body, rfl, found⟩
    refine ⟨[34], body, rfl, ?_, found⟩
    rw [Flex.word, Regex.matches_literal, quote]

end Strings

section Rules

variable {pattern : Regex UInt8} {text word more back : List UInt8}
  {rule : Regex UInt8 × RuleAction} {kind : TokenKind}

/-- What the rules outside comments match. -/
inductive InitialMatch : List UInt8 → Prop where
  | spaces {word : List UInt8} (spaced : ∀ byte ∈ word, white byte) :
      InitialMatch word
  | line {body : List UInt8} (inside : 10 ∉ body) :
      InitialMatch (47 :: 47 :: body)
  | opening : InitialMatch [47, 42]
  | solid {word : List UInt8} : Solid word → InitialMatch word
  | string {escapes : UInt8 → Bool} {body : List UInt8} :
      (Flex.stringBody escapes).Matches body → InitialMatch (34 :: body)
  | closed {escapes : UInt8 → Bool} {body : List UInt8} :
      (Flex.stringBody escapes).Matches body →
      InitialMatch (34 :: (body ++ [34]))
  | single (byte : UInt8) : InitialMatch [byte]

theorem digits_parts (found : Flex.digits.Matches text) :
    text ≠ [] ∧ ∀ byte ∈ text, Flex.namePart byte = true ∨ byte = 46 := by
  obtain ⟨filled, every⟩ := Regex.matches_plus_symbol.mp found
  refine ⟨filled, fun byte member => .inl ?_⟩
  rw [Flex.namePart, every byte member, Bool.or_true]

theorem duration_parts (found : Flex.duration.Matches text) :
    text ≠ [] ∧ ∀ byte ∈ text, Flex.namePart byte = true ∨ byte = 46 := by
  obtain ⟨front, back, rfl, digits, units⟩ := Regex.matches_seq.mp found
  obtain ⟨filled, every⟩ := digits_parts digits
  refine ⟨by simp [filled], ?_⟩
  have unit : ∀ byte ∈ back, Flex.namePart byte = true := by
    simp only [Regex.matches_alt, Flex.word, Regex.matches_literal] at units
    obtain rfl | rfl | rfl := units <;> decide +kernel
  intro byte member
  cases List.mem_append.mp member with
  | inl front => exact every byte front
  | inr back => exact .inl (unit byte back)

theorem float_parts (found : Flex.float.Matches text) :
    text ≠ [] ∧ ∀ byte ∈ text, Flex.namePart byte = true ∨ byte = 46 := by
  obtain ⟨front, back, rfl, digits, rest⟩ := Regex.matches_seq.mp found
  obtain ⟨point, fraction, rfl, dot, digits'⟩ := Regex.matches_seq.mp rest
  rw [Flex.word, Regex.matches_literal] at dot
  subst dot
  obtain ⟨filled, every⟩ := digits_parts digits
  refine ⟨by simp [filled], ?_⟩
  intro byte member
  simp only [List.mem_append] at member
  obtain front | point | fraction := member
  · exact every byte front
  · exact .inr (by simpa [letters] using point)
  · exact (digits_parts digits').2 byte fraction

theorem identifier_parts (found : Flex.identifier.Matches text) :
    text ≠ [] ∧ ∀ byte ∈ text, Flex.namePart byte = true ∨ byte = 46 := by
  obtain ⟨front, back, rfl, start, parts⟩ := Regex.matches_seq.mp found
  obtain ⟨byte, first, rfl⟩ := Regex.matches_symbol.mp start
  refine ⟨by simp, ?_⟩
  intro other member
  cases List.mem_append.mp member with
  | inl front =>
      cases List.mem_singleton.mp front
      simp [Flex.namePart, first]
  | inr back => exact .inl (Regex.matches_star_symbol.mp parts other back)

theorem initial_match (member : rule ∈ initialRules)
    (found : rule.1.Matches word) : InitialMatch word := by
  simp only [initialRules, List.mem_append, List.mem_cons, List.mem_map,
    List.not_mem_nil, or_false] at member
  obtain ((rfl | rfl | rfl) | ⟨entry, member, rfl⟩) | rfl | rfl | rfl | rfl |
    rfl | rfl | rfl | rfl := member
  · obtain ⟨_, every⟩ := Regex.matches_plus_symbol.mp found
    exact .spaces fun byte member => by
      simpa [Flex.oneOf, white] using every byte member
  · obtain ⟨front, body, rfl, opens, every⟩ := Regex.matches_seq.mp found
    rw [Flex.word, Regex.matches_literal] at opens
    subst opens
    apply InitialMatch.line
    intro member
    have plain := Regex.matches_star_symbol.mp every 10 member
    exact absurd plain (by decide)
  · rw [Flex.word, Regex.matches_literal] at found
    subst found
    exact .opening
  · rw [Flex.word, Regex.matches_literal] at found
    subst found
    exact .solid (spelling_solid member)
  · exact .solid (solid_of_forall (duration_parts found).2)
  · exact .solid (solid_of_forall (float_parts found).2)
  · exact .solid (solid_of_forall (digits_parts found).2)
  · exact .solid (solid_of_forall (identifier_parts found).2)
  · obtain ⟨body, rfl, inside⟩ := string_matches.mp found
    exact .closed inside
  · obtain ⟨body, rfl, inside⟩ := string_matches.mp found
    exact .closed inside
  · obtain ⟨body, rfl, inside⟩ := unterminatedString_matches.mp found
    exact .string inside
  · obtain ⟨byte, _, rfl⟩ := Regex.matches_symbol.mp found
    exact .single byte

/-- The text of a token, which is not empty. -/
inductive TokenText : TokenKind → List UInt8 → Prop where
  | solid {kind : TokenKind} {text : List UInt8} (filled : text ≠ []) :
      kind ≠ .string → Solid text → TokenText kind text
  | string {body : List UInt8} :
      (Flex.stringBody (Flex.oneOf "ntr\"\\")).Matches body →
      TokenText .string (34 :: (body ++ [34]))

theorem token_text
    (member : (pattern, RuleAction.ret (.token kind)) ∈ initialRules)
    (found : pattern.Matches text) : TokenText kind text := by
  simp only [initialRules, List.mem_append, List.mem_cons, List.mem_map,
    List.not_mem_nil, Prod.mk.injEq, reduceCtorEq, and_false, or_false,
    false_or, RuleAction.ret.injEq, NetTokenKind.token.injEq] at member
  obtain ⟨⟨spelling, kind'⟩, member, rfl, rfl⟩ | member := member
  · have other : ∀ entry ∈ spellings, entry.2 ≠ .string := by decide
    rw [Flex.word, Regex.matches_literal] at found
    subst found
    obtain ⟨byte, back, same, _⟩ := (spelling_bounded member).first
    exact .solid (by simp [same]) (other _ member) (spelling_solid member)
  · obtain ⟨rfl, rfl⟩ | ⟨rfl, rfl⟩ | ⟨rfl, rfl⟩ | ⟨rfl, rfl⟩ | ⟨rfl, rfl⟩ :=
      member
    · obtain ⟨filled, parts⟩ := duration_parts found
      exact .solid filled (by decide) (solid_of_forall parts)
    · obtain ⟨filled, parts⟩ := float_parts found
      exact .solid filled (by decide) (solid_of_forall parts)
    · obtain ⟨filled, parts⟩ := digits_parts found
      exact .solid filled (by decide) (solid_of_forall parts)
    · obtain ⟨filled, parts⟩ := identifier_parts found
      exact .solid filled (by decide) (solid_of_forall parts)
    · obtain ⟨body, rfl, inside⟩ := string_matches.mp found
      exact .string inside

theorem TokenText.head (token : TokenText kind text) :
    ∃ byte rest, text = byte :: rest ∧ ¬ white byte := by
  cases token with
  | solid filled _ solid =>
      obtain ⟨byte, rest, rfl⟩ := List.exists_cons_of_ne_nil filled
      exact ⟨byte, rest, rfl, (solid.plain byte (by simp)).1⟩
  | string => exact ⟨34, _, rfl, by decide⟩

/-- A longer match than a token takes no whitespace, unless a comment starts
in place of a slash. -/
theorem InitialMatch.extends (found : InitialMatch (text ++ more))
    (token : TokenText kind text) (filled : more ≠ []) :
    (∀ byte ∈ more, ¬ white byte) ∨
      text = [47] ∧ (more.head? = some 47 ∨ more.head? = some 42) := by
  generalize whole : text ++ more = word at found
  cases found with
  | spaces spaced =>
      obtain ⟨first, rest, rfl, solid⟩ := token.head
      exact absurd (spaced first (by simp [← whole])) solid
  | line =>
      cases token with
      | solid nonempty _ solid =>
          obtain ⟨first, rest, rfl⟩ := List.exists_cons_of_ne_nil nonempty
          rw [List.cons_append, List.cons.injEq] at whole
          obtain ⟨rfl, tail⟩ := whole
          cases solid.slash rfl
          rw [List.nil_append] at tail
          exact .inr ⟨rfl, .inl (by rw [tail, List.head?_cons])⟩
      | string => simp at whole
  | opening =>
      cases token with
      | solid nonempty _ solid =>
          obtain ⟨first, rest, rfl⟩ := List.exists_cons_of_ne_nil nonempty
          rw [List.cons_append, List.cons.injEq] at whole
          obtain ⟨rfl, tail⟩ := whole
          cases solid.slash rfl
          rw [List.nil_append] at tail
          exact .inr ⟨rfl, .inr (by rw [tail, List.head?_cons])⟩
      | string => simp at whole
  | solid solid =>
      left
      intro byte member
      exact (solid.plain byte (by simp [← whole, member])).1
  | string inside =>
      exfalso
      cases token with
      | solid nonempty _ solid =>
          obtain ⟨first, rest, rfl⟩ := List.exists_cons_of_ne_nil nonempty
          rw [List.cons_append, List.cons.injEq] at whole
          exact (solid.plain first (by simp)).2 whole.1
      | string complete =>
          rw [List.cons_append, List.cons.injEq, List.append_assoc] at whole
          rw [← whole.2] at inside
          exact stringBody_closed complete inside
  | closed inside =>
      exfalso
      cases token with
      | solid nonempty _ solid =>
          obtain ⟨first, rest, rfl⟩ := List.exists_cons_of_ne_nil nonempty
          rw [List.cons_append, List.cons.injEq] at whole
          exact (solid.plain first (by simp)).2 whole.1
      | string complete =>
          obtain ⟨init, last, rfl⟩ :=
            (List.eq_nil_or_concat more).resolve_left filled
          rw [List.cons_append, List.cons.injEq, List.concat_eq_append,
            ← List.append_assoc] at whole
          have same := (List.append_inj' whole.2 rfl).1
          rw [← same, List.append_assoc] at inside
          exact stringBody_closed complete inside
  | single byte =>
      have lengths := congrArg List.length whole
      obtain ⟨first, rest, rfl, _⟩ := token.head
      obtain ⟨second, others, rfl⟩ := List.exists_cons_of_ne_nil filled
      simp at lengths

/-- A token stays selected if what follows it up to the first whitespace
followed it before. -/
theorem selects_token {back' : List UInt8}
    (selects : Selects initialRules text back (.ret (.token kind)))
    (alike : ∀ more rest, back' = more ++ rest →
      (∀ byte ∈ more, ¬ white byte) → more <+: back) :
    Selects initialRules text back' (.ret (.token kind)) := by
  obtain ⟨earliest, furthest⟩ := selects
  obtain ⟨pattern, member, found⟩ := earliestRule_some earliest
  have token : TokenText kind text := token_text member found
  refine ⟨earliest, ?_⟩
  intro rule other
  rw [Regex.noLonger_append]
  intro more rest same filled longer
  have before := Regex.noLonger_append.mp (furthest rule other)
  cases (initial_match other longer).extends token filled with
  | inl solid =>
      obtain ⟨later, split⟩ := alike more rest same solid
      exact before more later split.symm filled longer
  | inr comment =>
      obtain ⟨rfl, opens⟩ := comment
      obtain ⟨first, others, rfl⟩ := List.exists_cons_of_ne_nil filled
      have solid : ¬ white first := by
        obtain opens | opens := opens <;> cases opens <;> decide
      obtain ⟨later, split⟩ := alike [first] (others ++ rest) same
        (by simpa using solid)
      rw [List.head?_cons] at opens
      have opened : ∃ rule ∈ initialRules,
          rule.1.Matches ([47] ++ [first]) := by
        obtain opens | opens := opens
        · cases opens
          refine ⟨(.seq (Flex.word "//")
            (.star (.symbol (Flex.noneOf "\n"))), .skip), ?_, ?_⟩
          · simp [initialRules]
          · rw [← Regex.accepts_iff]
            decide +kernel
        · cases opens
          refine ⟨(Flex.word "/*", .openComment), ?_, ?_⟩
          · simp [initialRules]
          · simp [Flex.word, letters]
      obtain ⟨rule, member, shown⟩ := opened
      have shorter := Regex.noLonger_append.mp (furthest rule member)
      exact shorter [first] later split.symm (by simp) shown

end Rules

end NetLang
