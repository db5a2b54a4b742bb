import NetLang.Lexer.Munch

/-!
# What the scanner skips

The scanner skips every piece of trivia in front of a token or of the end.
-/

namespace NetLang

/-- A scanner skips from some bytes to others. -/
def Skips (condition : StartCondition) (bytes : List UInt8)
    (condition' : StartCondition) (bytes' : List UInt8) : Prop :=
  ∀ (scanner : Scanner) (fuel : Nat), scanner.condition = condition →
    scanner.rest = bytes → bytes.length < fuel →
    ∃ (scanner' : Scanner) (fuel' : Nat),
      scanner'.condition = condition' ∧ scanner'.rest = bytes' ∧
        bytes'.length < fuel' ∧ yylex fuel scanner = yylex fuel' scanner'

namespace Skips

variable {condition condition' condition'' : StartCondition}
  {bytes bytes' bytes'' word rest : List UInt8}

theorem refl : Skips condition bytes condition bytes := by
  intro scanner fuel same input enough
  exact ⟨scanner, fuel, same, input, enough, rfl⟩

theorem trans (first : Skips condition bytes condition' bytes')
    (second : Skips condition' bytes' condition'' bytes'') :
    Skips condition bytes condition'' bytes'' := by
  intro scanner fuel same input enough
  obtain ⟨scanner', fuel', same', input', enough', equal⟩ :=
    first scanner fuel same input enough
  obtain ⟨scanner'', fuel'', same'', input'', enough'', equal'⟩ :=
    second scanner' fuel' same' input' enough'
  exact ⟨scanner'', fuel'', same'', input'', enough'', equal.trans equal'⟩

/-- One rule is matched whose action does not return. -/
theorem step {action : RuleAction} (filled : word ≠ [])
    (selects : Selects condition.rules word rest action)
    (acts : action = .skip ∧ condition' = condition ∨
      action = .openComment ∧ condition' = .comment ∨
      action = .begin condition') :
    Skips condition (word ++ rest) condition' rest := by
  intro scanner fuel same input enough
  obtain ⟨fuel, rfl⟩ : ∃ fuel', fuel = fuel' + 1 :=
    Nat.exists_eq_succ_of_ne_zero (Nat.ne_of_gt (Nat.zero_lt_of_lt enough))
  have chosen := longestRule_of_selects selects
  have taken := (take_spec input).1
  have shorter : rest.length < fuel := by
    have positive := List.length_pos_of_ne_nil filled
    rw [List.length_append] at enough
    omega
  have nonempty : ∃ byte others, scanner.rest = byte :: others := by
    rw [input]
    exact List.exists_cons_of_ne_nil (by simp [filled])
  obtain ⟨byte, others, opened⟩ := nonempty
  have lookup : longestRule scanner.condition.rules scanner.rest =
      some (word.length, action) := by
    rw [same, input]
    exact chosen
  obtain ⟨rfl, rfl⟩ | ⟨rfl, rfl⟩ | rfl := acts
  · refine ⟨scanner.take word.length, fuel, same, taken, shorter, ?_⟩
    rw [yylex, lookup, opened]
  · refine ⟨(scanner.take word.length).openComment, fuel, rfl, taken,
      shorter, ?_⟩
    rw [yylex, lookup, opened]
  · refine ⟨(scanner.take word.length).begin condition', fuel, rfl, taken,
      shorter, ?_⟩
    rw [yylex, lookup, opened]

end Skips

/-- A run of whitespace is skipped at once. -/
theorem selects_spaces {run rest : List UInt8} (filled : run ≠ [])
    (spaced : ∀ byte ∈ run, white byte)
    (solid : ∀ byte ∈ rest.head?, ¬ white byte) :
    Selects initialRules run rest .skip := by
  have matched : (Regex.plus (.symbol (Flex.oneOf " \t\r\n"))).Matches run := by
    rw [Regex.matches_plus_symbol]
    refine ⟨filled, ?_⟩
    intro byte member
    simpa [Flex.oneOf, white] using spaced byte member
  obtain ⟨first, others, rfl⟩ := List.exists_cons_of_ne_nil filled
  have opens : white first := spaced first (by simp)
  constructor
  · rw [initialRules, List.cons_append, List.cons_append, earliestRule,
      if_pos (Regex.accepts_iff.mpr matched)]
  · intro rule member
    rw [Regex.noLonger_append]
    intro more back same nonempty longer
    obtain ⟨next, more, rfl⟩ := List.exists_cons_of_ne_nil nonempty
    have plain : ¬ white next := solid next (by simp [same])
    have found := initial_match member longer
    generalize whole : first :: others ++ next :: more = word at found
    rw [List.cons_append] at whole
    cases found with
    | spaces every => exact plain (every next (by simp [← whole]))
    | solid solid => exact (solid.plain first (by simp [← whole])).1 opens
    | single => simp at whole
    | line | opening | string | closed =>
        cases (List.cons.inj whole).1
        exact absurd opens (by decide)

/-- A line comment is skipped up to the end of the line. -/
theorem selects_line {body rest : List UInt8} (inside : 10 ∉ body)
    (ends : ∀ byte ∈ rest.head?, byte = 10) :
    Selects initialRules (letters "//" ++ body) rest .skip := by
  have slashes : letters "//" = [47, 47] := by decide
  have matched : (Regex.seq (Flex.word "//")
      (.star (.symbol (Flex.noneOf "\n")))).Matches
      (letters "//" ++ body) := by
    refine .seq ?_ (Regex.matches_star_symbol.mpr ?_)
    · rw [Flex.word, Regex.matches_literal]
    · intro byte member
      have other : byte ≠ 10 := by
        intro same
        exact inside (same ▸ member)
      simpa [Flex.noneOf, letters] using other
  have unspaced : ¬ (Regex.plus (.symbol (Flex.oneOf " \t\r\n"))).accepts
      (letters "//" ++ body) = true := by
    rw [Regex.accepts_iff, Regex.matches_plus_symbol]
    intro spaced
    exact absurd (spaced.2 47 (by simp [slashes])) (by decide)
  constructor
  · rw [initialRules, List.cons_append, List.cons_append, earliestRule,
      if_neg unspaced, List.cons_append, List.cons_append, earliestRule,
      if_pos (Regex.accepts_iff.mpr matched)]
  · intro rule member
    rw [Regex.noLonger_append]
    intro more back same nonempty longer
    obtain ⟨next, more, rfl⟩ := List.exists_cons_of_ne_nil nonempty
    have newline : next = 10 := ends next (by simp [same])
    subst newline
    have found := initial_match member longer
    rw [slashes] at found
    generalize whole : [47, 47] ++ body ++ 10 :: more = word at found
    rw [List.append_assoc, List.cons_append, List.cons_append,
      List.nil_append] at whole
    cases found with
    | spaces every =>
        exact absurd (every 47 (by simp [← whole])) (by decide)
    | line inside' =>
        rw [List.cons.injEq, List.cons.injEq] at whole
        exact inside' (by simp [← whole.2.2])
    | solid solid =>
        exact (solid.plain 10 (by simp [← whole])).1 (by decide)
    | opening | single | string | closed => simp at whole

theorem selects_opening (rest : List UInt8) :
    Selects initialRules (letters "/*") rest .openComment := by
  have sign : letters "/*" = [47, 42] := by decide
  constructor
  · decide +kernel
  · intro rule member
    rw [Regex.noLonger_append]
    intro more back same nonempty longer
    obtain ⟨next, more, rfl⟩ := List.exists_cons_of_ne_nil nonempty
    have found := initial_match member longer
    rw [sign] at found
    generalize whole : [47, 42] ++ next :: more = word at found
    cases found with
    | spaces every =>
        exact absurd (every 47 (by simp [← whole])) (by decide)
    | solid solid =>
        subst whole
        have short := solid.slash (by simp)
        simp at short
    | line | opening | single | string | closed => simp at whole

/-- The body of a comment that has no end in it begins with text that some
rule skips, and the rest of the body has no end in it. -/
theorem selects_comment {byte : UInt8} {body : List UInt8}
    (inside : ¬ letters "*/" <:+: byte :: body ++ letters "*")
    (rest : List UInt8) :
    ∃ word body', word ≠ [] ∧ byte :: body = word ++ body' ∧
      Selects commentRules word (body' ++ letters "*/" ++ rest) .skip := by
  have sign : letters "*/" = [42, 47] := by decide
  obtain ⟨rule, member, matched⟩ := rules_total .comment byte
  obtain ⟨length, action, chosen, _⟩ :
      ∃ length action, longestRule commentRules
        ([byte] ++ (body ++ letters "*/" ++ rest)) = some (length, action) ∧
          [byte].length ≤ length :=
    longestRule_exists member matched
  obtain ⟨word, others, same, rfl, selects⟩ := longestRule_selects chosen
  obtain ⟨pattern, member, found⟩ := earliestRule_some selects.earliest
  have filled : word ≠ [] := by
    intro empty
    subst empty
    have filledRules : ∀ rule ∈ StartCondition.comment.rules,
        ¬ rule.1.Matches [] := rules_filled
    exact filledRules _ member found
  have split : (byte :: body) ++ (letters "*/" ++ rest) = word ++ others := by
    rw [← same]
    simp
  obtain ⟨more, rfl, rest'⟩ | ⟨body', cut, rest'⟩ :=
    List.append_eq_append_iff.mp split
  · have ended : action = .skip ∧ more = [] := by
      cases more with
      | nil =>
          refine ⟨?_, rfl⟩
          obtain ⟨rfl, _⟩ | ⟨skips, _⟩ := comment_rule member
          · rw [Flex.word, Regex.matches_literal, List.append_nil] at found
            exact absurd ⟨[], letters "*", by rw [found]; rfl⟩ inside
          · exact skips
      | cons next more =>
          have star : next = 42 := by
            rw [sign] at rest'
            exact (List.cons.inj rest').1.symm
          subst star
          obtain ⟨rfl, _⟩ | ⟨_, rfl | rfl | rfl⟩ := comment_rule member
          · rw [Flex.word, Regex.matches_literal, sign] at found
            cases body <;> simp at found
          · obtain ⟨_, every⟩ := Regex.matches_plus_symbol.mp found
            exact absurd (every 42 (by simp)) (by decide)
          · rw [Flex.word, Regex.matches_literal] at found
            simp [letters] at found
          · rw [Flex.word, Regex.matches_literal] at found
            simp [letters] at found
    obtain ⟨rfl, rfl⟩ := ended
    refine ⟨byte :: body, [], by simp, by simp, ?_⟩
    rw [List.nil_append] at rest'
    rw [List.append_nil, ← rest'] at selects
    exact selects
  · refine ⟨word, body', filled, cut, ?_⟩
    rw [rest', ← List.append_assoc] at selects
    obtain ⟨rfl, _⟩ | ⟨rfl, _⟩ := comment_rule member
    · rw [Flex.word, Regex.matches_literal] at found
      exact absurd ⟨[], body' ++ letters "*", by rw [cut, found]; simp⟩ inside
    · exact selects

theorem selects_closing (rest : List UInt8) :
    Selects commentRules (letters "*/") rest (.begin .initial) := by
  have sign : letters "*/" = [42, 47] := by decide
  constructor
  · decide +kernel
  · intro rule member
    obtain ⟨pattern, action⟩ := rule
    rw [Regex.noLonger_append, sign]
    intro more back same nonempty longer
    obtain ⟨next, more, rfl⟩ := List.exists_cons_of_ne_nil nonempty
    obtain ⟨rfl, _⟩ | ⟨_, rfl | rfl | rfl⟩ := comment_rule member
    · simp [Flex.word, letters] at longer
    · obtain ⟨_, every⟩ := Regex.matches_plus_symbol.mp longer
      exact absurd (every 42 (by simp)) (by decide)
    · simp [Flex.word, letters] at longer
    · simp [Flex.word, letters] at longer

/-- A comment is skipped up to its end. -/
theorem skips_comment {body rest : List UInt8}
    (inside : ¬ letters "*/" <:+: body ++ letters "*") :
    Skips .comment (body ++ letters "*/" ++ rest) .initial rest := by
  induction size : body.length using Nat.strong_induction_on
    generalizing body with
  | _ length induction =>
      cases body with
      | nil =>
          rw [List.nil_append]
          exact Skips.step (by decide) (selects_closing rest)
            (.inr (.inr rfl))
      | cons byte body =>
          obtain ⟨word, body', filled, cut, selects⟩ :=
            selects_comment inside rest
          have positive := List.length_pos_of_ne_nil filled
          have lengths := congrArg List.length cut
          rw [List.length_append, size] at lengths
          have inside' : ¬ letters "*/" <:+: body' ++ letters "*" := by
            intro found
            apply inside
            rw [cut, List.append_assoc]
            exact found.trans (List.suffix_append word _).isInfix
          have later := induction body'.length (by omega) inside' rfl
          have first : Skips .comment
              (word ++ (body' ++ letters "*/" ++ rest)) .comment
              (body' ++ letters "*/" ++ rest) :=
            Skips.step filled selects (.inl ⟨rfl, rfl⟩)
          have whole := first.trans later
          rw [cut]
          simpa only [List.append_assoc] using whole

/-- Trivia begins with the longest run of its whitespace. -/
theorem Trivia.run {after gap : List UInt8} (trivia : Trivia after gap) :
    ∃ run rest, gap = run ++ rest ∧ (∀ byte ∈ run, white byte) ∧
      Trivia after rest ∧ ∀ byte ∈ rest.head?, ¬ white byte := by
  induction trivia with
  | none => exact ⟨[], [], rfl, by simp, .none, by simp⟩
  | @space byte rest spaced trivia induction =>
      obtain ⟨run, rest, rfl, every, trivia, solid⟩ := induction
      refine ⟨byte :: run, rest, rfl, ?_, trivia, solid⟩
      rw [List.forall_mem_cons]
      exact ⟨spaced, every⟩
  | @line body rest inside ends trivia =>
      refine ⟨[], letters "//" ++ body ++ rest, rfl, by simp,
        .line inside ends trivia, ?_⟩
      have slashes : letters "//" = [47, 47] := by decide
      intro byte member
      rw [slashes] at member
      cases member
      decide
  | @block body rest inside trivia =>
      refine ⟨[], letters "/*" ++ body ++ letters "*/" ++ rest, rfl, by simp,
        .block inside trivia, ?_⟩
      have sign : letters "/*" = [47, 42] := by decide
      intro byte member
      rw [sign] at member
      cases member
      decide

/-- Trivia is skipped in front of what is no whitespace. -/
theorem Trivia.skips {after gap : List UInt8} (trivia : Trivia after gap)
    (solid : ∀ byte ∈ after.head?, ¬ white byte) :
    Skips .initial (gap ++ after) .initial after := by
  induction size : gap.length using Nat.strong_induction_on
    generalizing gap with
  | _ length induction =>
      cases trivia with
      | none => exact Skips.refl
      | @space byte rest spaced trivia =>
          obtain ⟨run, others, cut, every, trivia, solid'⟩ :=
            (Trivia.space spaced trivia).run
          have filled : run ≠ [] := by
            intro empty
            subst empty
            rw [List.nil_append] at cut
            exact solid' byte (by simp [← cut]) spaced
          have positive := List.length_pos_of_ne_nil filled
          have lengths := congrArg List.length cut
          rw [List.length_append, size] at lengths
          have stops : ∀ byte ∈ (others ++ after).head?, ¬ white byte := by
            cases others with
            | nil => exact solid
            | cons next others => exact solid'
          have first : Skips .initial (run ++ (others ++ after)) .initial
              (others ++ after) :=
            Skips.step filled (selects_spaces filled every stops)
              (.inl ⟨rfl, rfl⟩)
          rw [cut, List.append_assoc]
          exact first.trans (induction others.length (by omega) trivia rfl)
      | @line body rest inside ends trivia =>
          have later : Skips .initial (rest ++ after) .initial after := by
            refine induction rest.length ?_ trivia rfl
            simp only [List.length_append] at size
            have two : (letters "//").length = 2 := by decide
            omega
          have first : Skips .initial
              (letters "//" ++ body ++ (rest ++ after)) .initial
              (rest ++ after) :=
            Skips.step (by simp [letters]) (selects_line inside ends)
              (.inl ⟨rfl, rfl⟩)
          rw [List.append_assoc]
          exact first.trans later
      | @block body rest inside trivia =>
          have later : Skips .initial (rest ++ after) .initial after := by
            refine induction rest.length ?_ trivia rfl
            simp only [List.length_append] at size
            have two : (letters "/*").length = 2 := by decide
            omega
          have opened : Skips .initial
              (letters "/*" ++ (body ++ letters "*/" ++ (rest ++ after)))
              .comment (body ++ letters "*/" ++ (rest ++ after)) :=
            Skips.step (by decide) (selects_opening _)
              (.inr (.inl ⟨rfl, rfl⟩))
          have closed : Skips .comment
              (body ++ letters "*/" ++ (rest ++ after)) .initial
              (rest ++ after) := skips_comment inside
          have whole := (opened.trans closed).trans later
          simpa only [List.append_assoc] using whole

end NetLang
