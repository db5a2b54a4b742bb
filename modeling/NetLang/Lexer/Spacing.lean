import NetLang.Lexer.Skipping

/-!
# Tokens and what separates them

The lexer reads a source as tokens that the scanner selects, with trivia
between them, and it reads every such source.  Whitespace may take the place
of the trivia between two tokens, or come between two tokens.
-/

namespace NetLang

/-- Bytes are read as tokens if each is selected in front of what follows it,
and trivia stands between them. -/
inductive Munched : List UInt8 → List (TokenKind × List UInt8) → Prop where
  | last {gap : List UInt8} (trivia : Trivia [] gap) :
      Munched gap [(.eof, [])]
  | next {gap text back : List UInt8} {kind : TokenKind}
      {items : List (TokenKind × List UInt8)}
      (trivia : Trivia (text ++ back) gap)
      (selects : Selects initialRules text back (.ret (.token kind))) :
      Munched back items →
      Munched (gap ++ text ++ back) ((kind, text) :: items)

/-- The token that the scanner finds is the one that it selects. -/
theorem yylex_selects {fuel : Nat} {scanner scanner' : Scanner}
    {kind : TokenKind} {text : List UInt8}
    (found : yylex fuel scanner = .found (.token kind) text scanner')
    (other : kind ≠ .eof) :
    Selects initialRules text scanner'.rest (.ret (.token kind)) := by
  induction fuel generalizing scanner with
  | zero => cases found
  | succ fuel induction =>
      rw [yylex] at found
      cases input : scanner.rest with
      | nil =>
          simp only [input, Scanner.endOfFile] at found
          cases condition : scanner.condition with
          | initial =>
              simp only [condition, Scanned.found.injEq,
                NetTokenKind.token.injEq] at found
              exact absurd found.1.symm other
          | comment => simp [condition] at found
      | cons byte rest =>
          simp only [input] at found
          cases chosen : longestRule scanner.condition.rules
              (byte :: rest) with
          | none => simp [chosen] at found
          | some choice =>
              obtain ⟨length, action⟩ := choice
              rw [chosen] at found
              cases action with
              | skip => exact induction found
              | openComment => exact induction found
              | begin condition => exact induction found
              | ret kind' =>
                  simp only [Scanned.found.injEq] at found
                  obtain ⟨rfl, rfl, rfl⟩ := found
                  obtain ⟨word, others, same, rfl, selects⟩ :=
                    longestRule_selects chosen
                  have taken := (take_spec (input.trans same)).1
                  rw [taken, same, List.take_left']
                  · cases condition : scanner.condition with
                    | initial =>
                        rw [condition] at selects
                        exact selects
                    | comment =>
                        rw [condition] at selects
                        obtain ⟨pattern, member, _⟩ :=
                          earliestRule_some selects.earliest
                        obtain ⟨_, wrong⟩ | ⟨wrong, _⟩ :=
                          comment_rule member <;> cases wrong
                  · rfl

theorem selects_kind {text back : List UInt8} {kind : TokenKind}
    (selects : Selects initialRules text back (.ret (.token kind))) :
    kind ≠ .eof ∧ Bounded text ∧ TokenText kind text := by
  obtain ⟨pattern, member, found⟩ := earliestRule_some selects.earliest
  obtain ⟨other, bounded⟩ := token_bounded member found
  exact ⟨other, bounded, token_text member found⟩

/-- What a running lexer reads as its next token. -/
structure ReadsToken (lexer : Lexer) (token : Token) (gap text : List UInt8)
    (lexer' : Lexer) : Prop where
  trivia : Trivia (text ++ lexer'.scanner.rest) gap
  input : lexer.scanner.rest = gap ++ text ++ lexer'.scanner.rest
  lexeme : token.lexeme = Utf8.fromUtf8Lossy text
  condition : lexer'.scanner.condition = .initial
  token : token.kind = .eof ∧ text = [] ∧ lexer'.scanner.rest = [] ∧
      lexer'.terminal = some (.ok token) ∨
    Selects initialRules text lexer'.scanner.rest
      (.ret (.token token.kind)) ∧ lexer'.terminal = none

theorem nextToken_reads {lexer lexer' : Lexer} {token : Token}
    (running : lexer.terminal = none)
    (initial : lexer.scanner.condition = .initial)
    (result : lexer.nextToken = .ok (.ok token, lexer')) :
    ∃ gap text, ReadsToken lexer token gap text lexer' := by
  have finds := yylex_finds (Nat.lt_succ_self lexer.scanner.rest.length)
  unfold Lexer.nextToken lexerNext at result
  rw [running] at result
  cases scanned : yylex (lexer.scanner.rest.length + 1) lexer.scanner with
  | jammed => simp [scanned, bind, Except.bind] at result
  | outOfFuel => simp [scanned, bind, Except.bind] at result
  | found kind text scanner =>
      rw [scanned] at finds
      simp only [scanned, bind, Except.bind, pure, Except.pure,
        Except.ok.injEq, Prod.mk.injEq] at result
      obtain ⟨converted, rfl⟩ := result
      by_cases regular : ∃ kind', kind = .token kind'
      · obtain ⟨kind, rfl⟩ := regular
        have found : FoundFrom lexer.scanner kind text scanner := finds
        obtain ⟨lead, gap, leads, trivia, whole, _, _⟩ := found.skipped
        rw [initial] at leads
        cases (leads : lead = [])
        rw [List.nil_append] at whole
        cases found.token with
        | inl last =>
            obtain ⟨rfl, rfl, empty⟩ := last
            cases converted
            exact ⟨gap, [], trivia, whole, rfl, found.condition,
              .inl ⟨rfl, rfl, empty, rfl⟩⟩
        | inr token =>
            have positive : ¬ NetTokenKind.value (.token kind) ≤ 0 := by
              rw [value_nonpos]
              exact token.1
            simp only [Lexer.convert, fromRaw_value, positive, if_false,
              Except.ok.injEq] at converted
            subst converted
            refine ⟨gap, text, trivia, whole, rfl, found.condition,
              .inr ⟨yylex_selects scanned token.1, ?_⟩⟩
            simp [positive]
      · obtain ⟨error, wrong⟩ := convert_error
          ⟨kind.value, if kind.value ≤ 0 then [] else text,
            scanner.position.startLine, scanner.position.startColumn⟩
          (fun kind' same => regular ⟨kind', same⟩) rfl
        rw [wrong] at converted
        cases converted

/-- A running lexer reads the token that is selected after some trivia. -/
theorem nextToken_next {lexer : Lexer} {gap text back : List UInt8}
    {kind : TokenKind} (running : lexer.terminal = none)
    (initial : lexer.scanner.condition = .initial)
    (input : lexer.scanner.rest = gap ++ text ++ back)
    (trivia : Trivia (text ++ back) gap)
    (selects : Selects initialRules text back (.ret (.token kind))) :
    ∃ (scanner : Scanner) (line column : Nat),
      lexer.nextToken = .ok (.ok ⟨kind, Utf8.fromUtf8Lossy text, line,
        column⟩, ⟨scanner, none⟩) ∧
      scanner.rest = back ∧ scanner.condition = .initial := by
  obtain ⟨other, _, token⟩ := selects_kind selects
  obtain ⟨first, rest, rfl, solid⟩ := token.head
  have stops : ∀ byte ∈ (first :: rest ++ back).head?, ¬ white byte := by
    simpa using solid
  rw [List.append_assoc] at input
  obtain ⟨scanner, fuel, condition, rest', enough, same⟩ :=
    trivia.skips stops lexer.scanner (lexer.scanner.rest.length + 1) initial
      input (by rw [input]; exact Nat.lt_succ_self _)
  obtain ⟨fuel, rfl⟩ : ∃ fuel', fuel = fuel' + 1 :=
    Nat.exists_eq_succ_of_ne_zero (Nat.ne_of_gt (Nat.zero_lt_of_lt enough))
  have chosen : longestRule scanner.condition.rules scanner.rest =
      some ((first :: rest).length, .ret (.token kind)) := by
    rw [condition, rest']
    exact longestRule_of_selects selects
  have taken : scanner.rest.take (first :: rest).length = first :: rest := by
    rw [rest', List.take_left' rfl]
  have found : yylex (fuel + 1) scanner =
      .found (.token kind) (first :: rest)
        (scanner.take (first :: rest).length) := by
    rw [rest', List.cons_append] at taken
    rw [yylex, chosen, rest', List.cons_append]
    simp only [taken]
  have positive : ¬ NetTokenKind.value (.token kind) ≤ 0 := by
    rw [value_nonpos]
    exact other
  obtain ⟨left, kept, _⟩ := take_spec rest'
  refine ⟨scanner.take (first :: rest).length,
    (scanner.take (first :: rest).length).position.startLine,
    (scanner.take (first :: rest).length).position.startColumn, ?_, left,
    kept.trans condition⟩
  rw [Lexer.nextToken, running, lexerNext, same, found]
  simp [Lexer.convert, positive, bind, Except.bind, pure, Except.pure]

/-- A running lexer reads the end of the source after some trivia. -/
theorem nextToken_last {lexer : Lexer} {gap : List UInt8}
    (running : lexer.terminal = none)
    (initial : lexer.scanner.condition = .initial)
    (input : lexer.scanner.rest = gap) (trivia : Trivia [] gap) :
    ∃ (lexer' : Lexer) (line column : Nat),
      lexer.nextToken = .ok (.ok ⟨.eof, Utf8.fromUtf8Lossy [], line,
        column⟩, lexer') := by
  have whole : lexer.scanner.rest = gap ++ [] := by rw [input, List.append_nil]
  obtain ⟨scanner, fuel, condition, rest', enough, same⟩ :=
    trivia.skips (by simp) lexer.scanner (lexer.scanner.rest.length + 1)
      initial whole (by rw [whole]; exact Nat.lt_succ_self _)
  obtain ⟨fuel, rfl⟩ : ∃ fuel', fuel = fuel' + 1 :=
    Nat.exists_eq_succ_of_ne_zero (Nat.ne_of_gt (Nat.zero_lt_of_lt enough))
  rw [Lexer.nextToken, running, lexerNext, same]
  simp only [yylex, rest', Scanner.endOfFile, condition]
  exact ⟨_, _, _, rfl⟩

/-- The kind of a token and the bytes of its lexeme. -/
def Token.item (token : Token) : TokenKind × List UInt8 :=
  (token.kind, textBytes token.lexeme)

theorem textBytes_lossy_nil : textBytes (Utf8.fromUtf8Lossy []) = [] := by
  decide

/-- The tokens of a lexer are what the rest of its source is read as. -/
theorem munched_of_tokens {fuel : Nat} {lexer : Lexer} {tokens : List Token}
    {front : List UInt8} (encodes : Encodes (front ++ lexer.scanner.rest))
    (running : lexer.terminal = none)
    (initial : lexer.scanner.condition = .initial)
    (lexed : lexer.tokens fuel = .ok tokens) :
    Munched lexer.scanner.rest (tokens.map Token.item) := by
  induction fuel generalizing lexer tokens front with
  | zero => cases lexed
  | succ fuel induction =>
      rw [Lexer.tokens] at lexed
      cases called : lexer.nextToken with
      | error failure => simp [called, bind, Except.bind] at lexed
      | ok next =>
          obtain ⟨result, lexer'⟩ := next
          cases result with
          | error error => simp [called, bind, Except.bind] at lexed
          | ok token =>
              obtain ⟨gap, text, reads⟩ :=
                nextToken_reads running initial called
              simp only [called, bind, Except.bind, pure, Except.pure]
                at lexed
              cases reads.token with
              | inl last =>
                  obtain ⟨eof, rfl, empty, _⟩ := last
                  rw [if_pos eof] at lexed
                  cases lexed
                  have whole := reads.input
                  have trivia := reads.trivia
                  rw [empty, List.append_nil, List.append_nil] at whole
                  rw [empty, List.append_nil] at trivia
                  rw [whole, List.map_singleton, Token.item, eof,
                    reads.lexeme, textBytes_lossy_nil]
                  exact .last trivia
              | inr token =>
                  obtain ⟨selects, running'⟩ := token
                  obtain ⟨other, bounded, _⟩ := selects_kind selects
                  rw [if_neg other] at lexed
                  have later : Encodes
                      (front ++ gap ++ text ++ lexer'.scanner.rest) := by
                    rw [reads.input] at encodes
                    simpa only [List.append_assoc] using encodes
                  cases rest : lexer'.tokens fuel with
                  | error failure => simp [rest] at lexed
                  | ok tokens' =>
                      simp only [rest, Except.ok.injEq] at lexed
                      subst lexed
                      have munched := induction later running'
                        reads.condition rest
                      have lossless := textBytes_fromUtf8Lossy
                        (encodes_slice later bounded)
                      rw [reads.input, List.map_cons, Token.item,
                        reads.lexeme, lossless]
                      exact .next reads.trivia selects munched

/-- A lexer reads the rest of its source as its tokens. -/
theorem tokens_of_munched {fuel : Nat} {lexer : Lexer}
    {items : List (TokenKind × List UInt8)} {front bytes : List UInt8}
    (munched : Munched bytes items) (encodes : Encodes (front ++ bytes))
    (running : lexer.terminal = none)
    (initial : lexer.scanner.condition = .initial)
    (input : lexer.scanner.rest = bytes) (enough : bytes.length < fuel) :
    ∃ tokens, lexer.tokens fuel = .ok tokens ∧
      tokens.map Token.item = items := by
  induction munched generalizing fuel lexer front with
  | @last gap trivia =>
      obtain ⟨fuel, rfl⟩ : ∃ fuel', fuel = fuel' + 1 :=
        Nat.exists_eq_succ_of_ne_zero (by omega)
      obtain ⟨lexer', line, column, called⟩ :=
        nextToken_last running initial input trivia
      rw [Lexer.tokens, called]
      refine ⟨_, rfl, ?_⟩
      simp [Token.item, textBytes_lossy_nil]
  | @next gap text back kind items trivia selects munched induction =>
      obtain ⟨fuel, rfl⟩ : ∃ fuel', fuel = fuel' + 1 :=
        Nat.exists_eq_succ_of_ne_zero (by omega)
      obtain ⟨scanner, line, column, called, rest, condition⟩ :=
        nextToken_next running initial input trivia selects
      obtain ⟨other, bounded, token⟩ := selects_kind selects
      obtain ⟨first, others, same, _⟩ := token.head
      have later : Encodes (front ++ gap ++ text ++ back) := by
        simpa only [List.append_assoc] using encodes
      have shorter : back.length < fuel := by
        simp only [same, List.length_append, List.length_cons] at enough
        omega
      obtain ⟨tokens, lexed, items'⟩ :
          ∃ tokens, Lexer.tokens fuel ⟨scanner, none⟩ = .ok tokens ∧
            tokens.map Token.item = items :=
        induction later rfl condition rest shorter
      have lossless := textBytes_fromUtf8Lossy (encodes_slice later bounded)
      rw [Lexer.tokens, called]
      simp only [bind, Except.bind, pure, Except.pure, other, if_false, lexed]
      refine ⟨_, rfl, ?_⟩
      rw [List.map_cons, items', Token.item, lossless]

theorem tokenize_munched {source : String} {tokens : List Token}
    (lexed : tokenize source = .ok tokens) :
    Munched (textBytes source) (tokens.map Token.item) ∧
      (textBytes source).length ≤ Lexer.intMax - 2 := by
  unfold tokenize Lexer.new at lexed
  split at lexed
  case isTrue => cases lexed
  case isFalse small =>
    have encodes : Encodes ([] ++ textBytes source) := encodes_textBytes source
    exact ⟨munched_of_tokens encodes rfl rfl lexed, Nat.le_of_not_gt small⟩

theorem tokenize_of_munched {source : String}
    {items : List (TokenKind × List UInt8)}
    (munched : Munched (textBytes source) items)
    (fits : (textBytes source).length ≤ Lexer.intMax - 2) :
    ∃ tokens, tokenize source = .ok tokens ∧
      tokens.map Token.item = items := by
  have encodes : Encodes ([] ++ textBytes source) := encodes_textBytes source
  unfold tokenize Lexer.new
  rw [if_neg (Nat.not_lt_of_le fits)]
  exact tokens_of_munched munched encodes rfl rfl rfl (Nat.lt_succ_self _)

/-- Two texts that are read as the same tokens.  In the second one the trivia
is kept or is some whitespace; between two tokens it is not dropped. -/
inductive Respaced : Bool → List UInt8 → List UInt8 → Prop where
  | last {between : Bool} {gap gap' : List UInt8} (trivia : Trivia [] gap)
      (spaced : gap' = gap ∨ ∀ byte ∈ gap', white byte) :
      Respaced between gap gap'
  | next {between : Bool} {gap gap' text back back' : List UInt8}
      {kind : TokenKind} (trivia : Trivia (text ++ back) gap)
      (selects : Selects initialRules text back (.ret (.token kind)))
      (spaced : gap' = gap ∨
        (∀ byte ∈ gap', white byte) ∧ (between = true → gap' ≠ [])) :
      Respaced true back back' →
      Respaced between (gap ++ text ++ back) (gap' ++ text ++ back')

theorem Trivia.congr {after after' gap : List UInt8}
    (same : after.head? = after'.head?) (trivia : Trivia after gap) :
    Trivia after' gap := by
  induction trivia with
  | none => exact .none
  | space spaced _ induction => exact .space spaced induction
  | @line body rest inside ends _ induction =>
      refine .line inside ?_ induction
      rw [List.head?_append] at ends ⊢
      rw [← same]
      exact ends
  | block inside _ induction => exact .block inside induction

theorem trivia_spaces {after gap : List UInt8}
    (spaced : ∀ byte ∈ gap, white byte) : Trivia after gap := by
  have whole := Trivia.spaces spaced (.none : Trivia after [])
  rwa [List.append_nil] at whole

/-- After a token, what the second text has up to its first whitespace also
follows the token in the first one. -/
theorem Respaced.alike {between : Bool} {bytes bytes' : List UInt8}
    (respaced : Respaced between bytes bytes') (inside : between = true) :
    ∀ more rest, bytes' = more ++ rest → (∀ byte ∈ more, ¬ white byte) →
      more <+: bytes := by
  have spaces : ∀ gap more rest others : List UInt8, gap ≠ [] →
      (∀ byte ∈ gap, white byte) → gap ++ others = more ++ rest →
      (∀ byte ∈ more, ¬ white byte) → more = [] := by
    intro gap more rest others filled spaced same solid
    obtain ⟨first, gap, rfl⟩ := List.exists_cons_of_ne_nil filled
    cases more with
    | nil => rfl
    | cons next more =>
        injection same with head tail
        subst head
        exact absurd (spaced first (by simp)) (solid first (by simp))
  induction respaced with
  | @last between gap gap' _ spaced =>
      intro more rest same solid
      cases spaced with
      | inl kept => exact ⟨rest, by rw [← same, kept]⟩
      | inr spaced =>
          by_cases empty : gap' = []
          · rw [empty] at same
            rw [(List.append_eq_nil_iff.mp same.symm).1]
            exact List.nil_prefix
          · rw [spaces gap' more rest [] empty spaced (by simpa using same)
              solid]
            exact List.nil_prefix
  | @next between gap gap' text back back' kind _ _ spaced _ induction =>
      intro more rest same solid
      cases spaced with
      | inl kept =>
          subst kept
          obtain ⟨later, cut, rest'⟩ | ⟨later, cut, _⟩ :=
            List.append_eq_append_iff.mp same
          · have prefixed := induction rfl later rest rest' (by
              intro byte member
              exact solid byte (by simp [cut, member]))
            rw [cut]
            exact List.prefix_append_right_inj _ |>.mpr prefixed
          · rw [cut, List.append_assoc]
            exact List.prefix_append more _
      | inr spaced =>
          rw [List.append_assoc] at same
          rw [spaces gap' more rest _ (spaced.2 inside) spaced.1 same solid]
          exact List.nil_prefix

theorem Respaced.munched {between : Bool} {bytes bytes' : List UInt8}
    (respaced : Respaced between bytes bytes') :
    ∃ items, Munched bytes items ∧ Munched bytes' items := by
  induction respaced with
  | @last between gap gap' trivia spaced =>
      refine ⟨_, .last trivia, .last ?_⟩
      cases spaced with
      | inl kept => exact kept ▸ trivia
      | inr spaced => exact trivia_spaces spaced
  | @next between gap gap' text back back' kind trivia selects spaced
      respaced induction =>
      obtain ⟨items, munched, munched'⟩ := induction
      refine ⟨_, .next trivia selects munched, .next ?_
        (selects_token selects (respaced.alike rfl)) munched'⟩
      obtain ⟨_, _, token⟩ := selects_kind selects
      obtain ⟨first, others, rfl, _⟩ := token.head
      cases spaced with
      | inl kept =>
          subst kept
          exact trivia.congr (by simp)
      | inr spaced => exact trivia_spaces spaced.1

theorem textBytes_injective : Function.Injective textBytes := by
  intro text text' same
  apply String.toByteArray_inj.mp
  exact ByteArray.ext (Array.toList_inj.mp same)

theorem textBytes_append (text text' : String) :
    textBytes (text ++ text') = textBytes text ++ textBytes text' := by
  simp [textBytes, String.toByteArray_append]

theorem textBytes_ofList (characters : List Char) :
    textBytes (String.ofList characters) =
      characters.flatMap String.utf8EncodeChar := by
  simp [textBytes, List.utf8Encode]

/-- The kind and the lexeme of a token, without its place. -/
def Token.spelled (token : Token) : TokenKind × String :=
  (token.kind, token.lexeme)

theorem spelled_of_items {tokens tokens' : List Token}
    (same : tokens'.map Token.item = tokens.map Token.item) :
    tokens'.map Token.spelled = tokens.map Token.spelled := by
  have factor : Token.item = Prod.map id textBytes ∘ Token.spelled := rfl
  have injective : Function.Injective
      (Prod.map (id : TokenKind → TokenKind) textBytes) :=
    Function.injective_id.prodMap textBytes_injective
  rw [factor, ← List.map_map, ← List.map_map] at same
  exact List.map_injective_iff.mpr injective same

/-- The texts of tokens with a space in front of each. -/
def spacedItems (items : List (TokenKind × List UInt8)) : List UInt8 :=
  (items.filter fun item => item.1 ≠ .eof).flatMap fun item => 32 :: item.2

theorem Munched.spaced {bytes : List UInt8}
    {items : List (TokenKind × List UInt8)} (munched : Munched bytes items) :
    Respaced true bytes (spacedItems items) := by
  have space : white 32 := by decide
  induction munched with
  | last trivia => exact .last trivia (.inr (by simp [spacedItems]))
  | @next gap text back kind items trivia selects _ induction =>
      obtain ⟨other, _, _⟩ := selects_kind selects
      have whole : spacedItems ((kind, text) :: items) =
          [32] ++ text ++ spacedItems items := by
        simp [spacedItems, other]
      rw [whole]
      exact .next trivia selects (.inr ⟨by simpa using space, by simp⟩)
        induction

/-- The space in front of the first token may be left out. -/
theorem Munched.joined {bytes : List UInt8}
    {items : List (TokenKind × List UInt8)} (munched : Munched bytes items) :
    Respaced false bytes (spacedItems items).tail := by
  cases munched with
  | last trivia => exact .last trivia (.inr (by simp [spacedItems]))
  | @next gap text back kind items trivia selects later =>
      obtain ⟨other, _, _⟩ := selects_kind selects
      have whole : (spacedItems ((kind, text) :: items)).tail =
          [] ++ text ++ spacedItems items := by
        simp [spacedItems, other]
      rw [whole]
      exact .next trivia selects (.inr ⟨by simp, by simp⟩) later.spaced

/-- The lexemes of the tokens before the end, joined by single spaces. -/
def joinLexemes (tokens : List Token) : String :=
  " ".intercalate
    ((tokens.filter fun token => token.kind ≠ .eof).map (·.lexeme))

theorem textBytes_intercalate (text : String) (texts : List String) :
    textBytes (" ".intercalate (text :: texts)) =
      textBytes text ++ texts.flatMap fun text => 32 :: textBytes text := by
  have space : textBytes " " = [32] := by decide
  induction texts generalizing text with
  | nil => simp
  | cons next texts induction =>
      rw [String.intercalate_cons_cons, textBytes_append, textBytes_append,
        induction, space]
      simp

theorem textBytes_joinLexemes (tokens : List Token) :
    textBytes (joinLexemes tokens) =
      (spacedItems (tokens.map Token.item)).tail := by
  have filtered : (tokens.map Token.item).filter
      (fun item => item.1 ≠ .eof) =
        (tokens.filter fun token => token.kind ≠ .eof).map Token.item := by
    rw [List.filter_map]
    rfl
  rw [joinLexemes, spacedItems, filtered]
  cases tokens.filter fun token => token.kind ≠ .eof with
  | nil => decide
  | cons token tokens =>
      rw [List.map_cons, textBytes_intercalate]
      simp [Token.item, List.flatMap_map]

theorem Munched.mem {bytes : List UInt8}
    {items : List (TokenKind × List UInt8)} (munched : Munched bytes items)
    {item : TokenKind × List UInt8} (member : item ∈ items)
    (other : item.1 ≠ .eof) :
    item.2.length ≤ bytes.length ∧
      Munched item.2 [item, (.eof, [])] := by
  induction munched with
  | last =>
      rw [List.mem_singleton] at member
      exact absurd (by rw [member]) other
  | @next gap text back kind items trivia selects _ induction =>
      cases List.mem_cons.mp member with
      | inl same =>
          subst same
          have alone : Selects initialRules text []
              (.ret (.token kind)) := by
            apply selects_token selects
            intro more rest same _
            rw [(List.append_eq_nil_iff.mp same.symm).1]
            exact List.nil_prefix
          have whole : Munched ([] ++ text ++ []) [(kind, text), (.eof, [])] :=
            .next .none alone (.last .none)
          rw [List.nil_append, List.append_nil] at whole
          refine ⟨?_, whole⟩
          simp only [List.length_append]
          omega
      | inr member =>
          obtain ⟨short, whole⟩ := induction member
          refine ⟨?_, whole⟩
          simp only [List.length_append]
          omega

/-- Sources whose trivia differs have the same tokens. -/
theorem tokenize_respaced {source source' : String} {tokens : List Token}
    (lexed : tokenize source = .ok tokens) {between : Bool}
    (respaced : Respaced between (textBytes source) (textBytes source'))
    (fits : (textBytes source').length ≤ Lexer.intMax - 2) :
    ∃ tokens', tokenize source' = .ok tokens' ∧
      tokens'.map Token.spelled = tokens.map Token.spelled := by
  obtain ⟨items, munched, munched'⟩ := respaced.munched
  obtain ⟨_, small⟩ := tokenize_munched lexed
  obtain ⟨tokens₁, lexed₁, items₁⟩ := tokenize_of_munched munched small
  obtain ⟨tokens', lexed', items'⟩ := tokenize_of_munched munched' fits
  rw [lexed] at lexed₁
  cases lexed₁
  exact ⟨tokens', lexed', spelled_of_items (items'.trans items₁.symm)⟩

/-- Formatting does not change the tokens of a source: neither joining the
lexemes by single spaces does, nor replacing trivia by whitespace, and each
lexeme alone is one token. -/
theorem tokenize_formatted (source : String) (tokens : List Token)
    (lexed : tokenize source = .ok tokens) :
    ((textBytes (joinLexemes tokens)).length ≤ Lexer.intMax - 2 →
      ∃ tokens', tokenize (joinLexemes tokens) = .ok tokens' ∧
        tokens'.map Token.spelled = tokens.map Token.spelled) ∧
    (∀ token ∈ tokens, token.kind ≠ .eof →
      ∃ first last, tokenize token.lexeme = .ok [first, last] ∧
        first.spelled = token.spelled ∧ last.kind = .eof) ∧
    (∀ source', Respaced false (textBytes source) (textBytes source') →
      (textBytes source').length ≤ Lexer.intMax - 2 →
      ∃ tokens', tokenize source' = .ok tokens' ∧
        tokens'.map Token.spelled = tokens.map Token.spelled) := by
  obtain ⟨munched, small⟩ := tokenize_munched lexed
  refine ⟨?_, ?_, ?_⟩
  · intro fits
    have respaced : Respaced false (textBytes source)
        (textBytes (joinLexemes tokens)) := by
      rw [textBytes_joinLexemes]
      exact munched.joined
    exact tokenize_respaced lexed respaced fits
  · intro token member other
    obtain ⟨short, alone⟩ :=
      munched.mem (List.mem_map_of_mem member) other
    obtain ⟨tokens', lexed', items'⟩ :
        ∃ tokens', tokenize token.lexeme = .ok tokens' ∧
          tokens'.map Token.item = [token.item, (.eof, [])] :=
      tokenize_of_munched alone (short.trans small)
    have empty : textBytes "" = [] := by decide
    have same : tokens'.map Token.item =
        [token, ⟨.eof, "", 0, 0⟩].map Token.item := by
      rw [items', List.map_cons, List.map_singleton, Token.item, Token.item,
        empty]
    have spelled := spelled_of_items same
    obtain ⟨first, rest, rfl, head, tail⟩ :=
      List.map_eq_cons_iff.mp spelled
    obtain ⟨last, rfl, last'⟩ := List.map_eq_singleton_iff.mp tail
    exact ⟨first, last, lexed', head, congrArg Prod.fst last'⟩
  · intro source' respaced fits
    exact tokenize_respaced lexed respaced fits

theorem tokenize_formatted_comment :
    ∃ tokens, tokenize (joinLexemes [⟨.identifier, "x", 1, 1⟩,
        ⟨.slash, "/", 1, 6⟩, ⟨.identifier, "y", 1, 7⟩, ⟨.eof, "", 1, 8⟩]) =
          .ok tokens ∧
      tokens.map Token.spelled =
        [(.identifier, "x"), (.slash, "/"), (.identifier, "y"), (.eof, "")] :=
  (tokenize_formatted "x/**//y" _ (by decide +kernel)).1 (by decide +kernel)

/-- Two names with some spaces between them. -/
def spacedNames (spaces : Nat) : String :=
  String.ofList ('x' :: (List.replicate spaces ' ' ++ ['x']))

theorem textBytes_spacedNames (spaces : Nat) :
    textBytes (spacedNames spaces) =
      [] ++ [120] ++ (List.replicate spaces 32 ++ [120] ++ []) := by
  have name : String.utf8EncodeChar 'x' = [120] := by decide
  have space : String.utf8EncodeChar ' ' = [32] := by decide
  have run : (List.replicate spaces ' ').flatMap String.utf8EncodeChar =
      List.replicate spaces 32 := by
    induction spaces with
    | zero => rfl
    | succ spaces induction =>
        rw [List.replicate_succ, List.flatMap_cons, induction, space]
        rfl
  rw [spacedNames, textBytes_ofList, List.flatMap_cons, List.flatMap_append,
    run, name]
  simp [name]

theorem spacedNames_respaced {spaces : Nat} (filled : 0 < spaces) :
    Respaced false (textBytes "x x") (textBytes (spacedNames spaces)) := by
  have bytes : textBytes "x x" = [] ++ [120] ++ ([32] ++ [120] ++ []) := by
    decide
  have spaced : ∀ byte ∈ List.replicate spaces (32 : UInt8), white byte := by
    intro byte member
    rw [(List.mem_replicate.mp member).2]
    decide
  have selected : ∀ back, longestRule initialRules ([120] ++ back) =
      some (1, .ret (.token .identifier)) →
        Selects initialRules [120] back (.ret (.token .identifier)) := by
    intro back chosen
    obtain ⟨word, rest, same, size, selects⟩ := longestRule_selects chosen
    obtain ⟨rfl, rfl⟩ := List.append_inj same (by rw [size]; rfl)
    exact selects
  rw [bytes, textBytes_spacedNames]
  refine .next .none (selected _ (by decide +kernel)) (.inl rfl) ?_
  have single : ∀ byte ∈ ([32] : List UInt8), white byte := by
    simp [white, letters]
  refine .next (trivia_spaces single) (selected _ (by decide +kernel))
    (.inr ⟨spaced, fun _ => ?_⟩) (.last .none (.inl rfl))
  intro empty
  rw [List.replicate_eq_nil_iff] at empty
  omega

/-- Whitespace can make a source too large for the lexer. -/
theorem tokenize_oversized :
    tokenize "x x" = .ok [⟨.identifier, "x", 1, 1⟩, ⟨.identifier, "x", 1, 3⟩,
      ⟨.eof, "", 1, 4⟩] ∧
    Respaced false (textBytes "x x") (textBytes (spacedNames (2 ^ 31))) ∧
    ∀ tokens, tokenize (spacedNames (2 ^ 31)) ≠ .ok tokens := by
  refine ⟨by decide +kernel, spacedNames_respaced (by decide), ?_⟩
  intro tokens lexed
  obtain ⟨_, small⟩ := tokenize_munched lexed
  rw [textBytes_spacedNames] at small
  simp only [List.length_append, List.length_replicate, Lexer.intMax] at small
  omega

end NetLang
