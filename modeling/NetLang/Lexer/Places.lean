import NetLang.Lexer.Trivia

/-!
# Places of tokens

Lexing loses nothing: the lexemes are slices of the source with trivia between
them, and the places of the tokens are the places of these slices.
-/

namespace NetLang

namespace NetPosition

def place (position : NetPosition) : Position :=
  ⟨position.line, position.column⟩

def start (position : NetPosition) : Position :=
  ⟨position.startLine, position.startColumn⟩

theorem place_foldl_count (position : NetPosition) (text : List UInt8) :
    (text.foldl count position).place =
        text.foldl Position.count position.place ∧
      (text.foldl count position).start = position.start := by
  induction text generalizing position with
  | nil => exact ⟨rfl, rfl⟩
  | cons byte text induction =>
      have step : (position.count byte).place = position.place.count byte ∧
          (position.count byte).start = position.start := by
        unfold count Position.count
        split <;> exact ⟨rfl, rfl⟩
      obtain ⟨place, start⟩ := induction (position.count byte)
      rw [List.foldl_cons, List.foldl_cons, place, start, step.1, step.2]
      exact ⟨rfl, rfl⟩

@[simp] theorem place_userAction (position : NetPosition)
    (text : List UInt8) :
    (position.userAction text).place =
      text.foldl Position.count position.place :=
  (place_foldl_count _ text).1

@[simp] theorem start_userAction (position : NetPosition)
    (text : List UInt8) :
    (position.userAction text).start = position.place :=
  (place_foldl_count _ text).2

end NetPosition

/-- What the scanner reads of an open comment. -/
def Lead : StartCondition → List UInt8 → Prop
  | .initial, lead => lead = []
  | .comment, lead =>
      ∃ body, ¬ letters "*/" <:+: body ++ letters "*" ∧
        lead = body ++ letters "*/"

/-- A scanner that returns a token has skipped trivia and read the token. -/
structure FoundFrom (scanner : Scanner) (kind : TokenKind)
    (text : List UInt8) (scanner' : Scanner) : Prop where
  skipped : ∃ lead gap, Lead scanner.condition lead ∧
    Trivia (text ++ scanner'.rest) gap ∧
    scanner.rest = lead ++ gap ++ text ++ scanner'.rest ∧
    scanner'.position.start =
      (lead ++ gap).foldl Position.count scanner.position.place ∧
    scanner'.position.place =
      (lead ++ gap ++ text).foldl Position.count scanner.position.place
  condition : scanner'.condition = .initial
  token : kind = .eof ∧ text = [] ∧ scanner'.rest = [] ∨
    kind ≠ .eof ∧ Bounded text

def Finds (scanner : Scanner) : Scanned → Prop
  | .found (.token kind) text scanner' => FoundFrom scanner kind text scanner'
  | .found _ _ _ => True
  | .jammed => False
  | .outOfFuel => False

/-- Reading some text before a token adds it to what is skipped. -/
theorem Finds.skip {scanner scanner' : Scanner} {result : Scanned}
    (finds : Finds scanner' result) (text : List UInt8)
    (read : scanner.rest = text ++ scanner'.rest)
    (place : scanner'.position.place =
      text.foldl Position.count scanner.position.place)
    (joins : ∀ lead gap after, Lead scanner'.condition lead →
      Trivia after gap → scanner'.rest = lead ++ gap ++ after →
      ∃ lead' gap', Lead scanner.condition lead' ∧ Trivia after gap' ∧
        text ++ (lead ++ gap) = lead' ++ gap') :
    Finds scanner result := by
  cases result with
  | jammed => exact finds
  | outOfFuel => exact finds
  | found kind token later =>
      cases kind with
      | token kind =>
          obtain ⟨lead, gap, leads, trivia, whole, start, ends⟩ :=
            FoundFrom.skipped finds
          obtain ⟨lead', gap', leads', trivia', same⟩ :=
            joins lead gap (token ++ later.rest) leads trivia
              (by simpa using whole)
          refine ⟨⟨lead', gap', leads', trivia', ?_, ?_, ?_⟩,
            FoundFrom.condition finds, FoundFrom.token finds⟩
          · rw [read, whole, ← same]
            simp
          · rw [start, place, ← same]
            simp
          · rw [ends, place, ← same]
            simp
      | unexpectedCharacter => trivial
      | unterminatedComment => trivial
      | invalidEscape => trivial
      | unterminatedString => trivial

/-- A longest comment up to the end of a line is a complete one. -/
theorem line_ends {input front back : List UInt8}
    (same : input = front ++ back)
    (found : (Regex.seq (Flex.word "//")
      (.star (.symbol (Flex.noneOf "\n")))).Matches front)
    (furthest : (Regex.seq (Flex.word "//")
      (.star (.symbol (Flex.noneOf "\n")))).NoLonger input front.length) :
    ∃ body, front = letters "//" ++ body ∧ 10 ∉ body ∧
      ∀ byte ∈ back.head?, byte = 10 := by
  obtain ⟨slashes, body, rfl, slash, inside⟩ := Regex.matches_seq.mp found
  rw [Flex.word, Regex.matches_literal] at slash
  subst slash
  rw [Regex.matches_star_symbol] at inside
  refine ⟨body, rfl, ?_, ?_⟩
  · intro newline
    have wrong := inside 10 newline
    revert wrong
    decide +kernel
  · intro byte next
    cases back with
    | nil => cases next
    | cons byte' later =>
        cases next
        apply Classical.byContradiction
        intro other
        apply furthest (letters "//" ++ (body ++ [byte])) later
        · simp [same]
        · simp
        · apply Regex.Matches.seq
          · simp [Flex.word]
          · rw [Regex.matches_star_symbol]
            intro byte' member
            cases List.mem_append.mp member with
            | inl member => exact inside byte' member
            | inr member =>
                cases List.mem_singleton.mp member
                simpa [Flex.noneOf, letters] using other

/-- Text that does not close a comment extends its body. -/
theorem block_extends {text body : List UInt8}
    (inside : ¬ letters "*/" <:+: body ++ letters "*")
    (plain : 42 ∉ text ∨
      text = [42] ∧ ∀ byte ∈ body.head?, byte ≠ 47) :
    ¬ letters "*/" <:+: text ++ body ++ letters "*" := by
  have pair : letters "*/" = [42, 47] := by decide
  have single : letters "*" = [42] := by decide
  rw [pair, single] at *
  cases plain with
  | inl free =>
      induction text with
      | nil => exact inside
      | cons byte text induction =>
          simp only [List.mem_cons, not_or] at free
          rw [List.cons_append, List.cons_append, List.infix_cons_iff]
          rintro (starts | later)
          · obtain ⟨rest, same⟩ := starts
            injection same with first
            exact free.1 first
          · exact induction free.2 later
  | inr star =>
      obtain ⟨rfl, next⟩ := star
      rw [List.append_assoc, List.singleton_append, List.infix_cons_iff]
      rintro (starts | later)
      · obtain ⟨rest, same⟩ := starts
        cases body with
        | nil => simp at same
        | cons byte body =>
            simp only [List.cons_append, List.nil_append, List.cons.injEq,
              true_and] at same
            exact next byte rfl same.1.symm
      · exact inside later

/-- The text of a skipping rule in a comment does not close it. -/
theorem comment_skip {pattern : Regex UInt8} {input front back : List UInt8}
    (member : (pattern, RuleAction.skip) ∈ commentRules)
    (same : input = front ++ back) (found : pattern.Matches front)
    (furthest : ∀ rule ∈ commentRules, rule.1.NoLonger input front.length) :
    42 ∉ front ∨ front = [42] ∧ ∀ byte ∈ back.head?, byte ≠ 47 := by
  obtain ⟨_, wrong⟩ | ⟨_, plain | star | newline⟩ := comment_rule member
  · cases wrong
  · subst plain
    left
    intro star
    have wrong := (Regex.matches_plus_symbol.mp found).2 42 star
    revert wrong
    decide +kernel
  · subst star
    rw [Flex.word, Regex.matches_literal] at found
    have single : letters "*" = [42] := by decide
    rw [single] at found
    subst found
    right
    refine ⟨rfl, ?_⟩
    intro byte next closing
    subst closing
    obtain ⟨later, rfl⟩ : ∃ later, back = 47 :: later := by
      cases back with
      | nil => cases next
      | cons byte later =>
          cases next
          exact ⟨later, rfl⟩
    refine furthest (Flex.word "*/", .begin .initial) (by simp [commentRules])
      (letters "*/") later ?_ ?_ ?_
    · rw [same]
      rfl
    · decide
    · simp [Flex.word]
  · subst newline
    rw [Flex.word, Regex.matches_literal] at found
    subst found
    left
    decide

theorem finds_endOfFile {scanner : Scanner} (empty : scanner.rest = []) :
    Finds scanner scanner.endOfFile := by
  unfold Scanner.endOfFile
  cases initial : scanner.condition with
  | comment => trivial
  | initial =>
      refine ⟨⟨[], [], ?_, .none, ?_, rfl, rfl⟩, rfl, .inl ⟨rfl, rfl, empty⟩⟩
      · rw [initial]
        rfl
      · simp [empty]

/-- The scanner with some of its text taken. -/
theorem take_spec {scanner : Scanner} {front back : List UInt8}
    (same : scanner.rest = front ++ back) :
    (scanner.take front.length).rest = back ∧
      (scanner.take front.length).condition = scanner.condition ∧
      (scanner.take front.length).position =
        scanner.position.userAction front := by
  simp [Scanner.take, same]

section Steps

variable {scanner : Scanner} {pattern : Regex UInt8}
  {front back : List UInt8} {result : Scanned}
  (same : scanner.rest = front ++ back) (found : pattern.Matches front)
  (furthest : ∀ rule ∈ scanner.condition.rules,
    rule.1.NoLonger scanner.rest front.length)

include same found furthest

theorem finds_skip
    (member : (pattern, RuleAction.skip) ∈ scanner.condition.rules)
    (finds : Finds (scanner.take front.length) result) :
    Finds scanner result := by
  obtain ⟨rest, kept, position⟩ := take_spec same
  apply finds.skip front
  · rw [rest, same]
  · rw [position, NetPosition.place_userAction]
  · intro lead gap after leads trivia whole
    rw [kept] at leads
    rw [rest] at whole
    cases condition : scanner.condition with
    | initial =>
        rw [condition] at leads member furthest
        cases (leads : lead = [])
        refine ⟨[], front ++ gap, rfl, ?_, rfl⟩
        cases initial_skip member with
        | inl white =>
            subst white
            apply trivia.spaces
            intro byte inside
            have accepted := (Regex.matches_plus_symbol.mp found).2 byte inside
            simpa [Flex.oneOf] using accepted
        | inr comment =>
            subst comment
            obtain ⟨body, rfl, inside, ends⟩ :=
              line_ends same found (furthest _ member)
            refine .line inside ?_ trivia
            simpa [whole] using ends
    | comment =>
        rw [condition] at leads member furthest
        obtain ⟨body, inside, rfl⟩ := leads
        refine ⟨front ++ body ++ letters "*/", gap, ?_, trivia, by simp⟩
        refine ⟨front ++ body, ?_, rfl⟩
        apply block_extends inside
        have plain := comment_skip member same found furthest
        cases plain with
        | inl free => exact .inl free
        | inr star =>
            right
            refine ⟨star.1, ?_⟩
            intro byte next
            apply star.2
            cases body with
            | nil => cases next
            | cons first body =>
                rw [whole]
                exact next

theorem finds_openComment
    (member : (pattern, RuleAction.openComment) ∈ scanner.condition.rules)
    (finds : Finds (scanner.take front.length).openComment result) :
    Finds scanner result := by
  obtain ⟨rest, _, position⟩ := take_spec same
  apply finds.skip front
  · rw [same]
    exact congrArg (front ++ ·) rest.symm
  · have kept : (scanner.take front.length).openComment.position.place =
        (scanner.take front.length).position.place := rfl
    rw [kept, position, NetPosition.place_userAction]
  · intro lead gap after leads trivia _
    obtain ⟨body, inside, rfl⟩ := leads
    cases condition : scanner.condition with
    | initial =>
        rw [condition] at member
        cases initial_openComment member
        rw [Flex.word, Regex.matches_literal] at found
        subst found
        refine ⟨[], letters "/*" ++ body ++ letters "*/" ++ gap, rfl, ?_, ?_⟩
        · exact .block inside trivia
        · simp
    | comment =>
        rw [condition] at member
        obtain ⟨_, wrong⟩ | ⟨wrong, _⟩ := comment_rule member <;> cases wrong

theorem finds_begin {condition' : StartCondition}
    (member : (pattern, RuleAction.begin condition') ∈ scanner.condition.rules)
    (finds : Finds ((scanner.take front.length).begin condition') result) :
    Finds scanner result := by
  obtain ⟨rest, _, position⟩ := take_spec same
  apply finds.skip front
  · rw [same]
    exact congrArg (front ++ ·) rest.symm
  · have kept : ((scanner.take front.length).begin condition').position =
        (scanner.take front.length).position := rfl
    rw [kept, position, NetPosition.place_userAction]
  · intro lead gap after leads trivia _
    cases condition : scanner.condition with
    | initial =>
        rw [condition] at member
        exact absurd member initial_begin
    | comment =>
        rw [condition] at member
        obtain ⟨rfl, opens⟩ | ⟨wrong, _⟩ := comment_rule member
        · cases opens
          cases (leads : lead = [])
          rw [Flex.word, Regex.matches_literal] at found
          subst found
          refine ⟨letters "*/", gap, ⟨[], ?_, rfl⟩, trivia, rfl⟩
          decide +kernel
        · cases wrong

omit furthest in
theorem finds_ret {kind : NetTokenKind}
    (member : (pattern, RuleAction.ret kind) ∈ scanner.condition.rules) :
    Finds scanner (.found kind front (scanner.take front.length)) := by
  obtain ⟨rest, kept, position⟩ := take_spec same
  cases kind with
  | token kind =>
      cases condition : scanner.condition with
      | initial =>
          rw [condition] at member
          refine ⟨⟨[], [], ?_, .none, ?_, ?_, ?_⟩, ?_,
            .inr (token_bounded member found)⟩
          · rw [condition]
            rfl
          · rw [rest, same]
            simp
          · rw [position, NetPosition.start_userAction]
            rfl
          · rw [position, NetPosition.place_userAction]
            rfl
          · rw [kept, condition]
      | comment =>
          rw [condition] at member
          obtain ⟨_, wrong⟩ | ⟨wrong, _⟩ := comment_rule member <;> cases wrong
  | unexpectedCharacter => trivial
  | unterminatedComment => trivial
  | invalidEscape => trivial
  | unterminatedString => trivial

end Steps

/-- A call of the scanner ends, and it finds the next token or an error. -/
theorem yylex_finds {fuel : Nat} {scanner : Scanner}
    (enough : scanner.rest.length < fuel) :
    Finds scanner (yylex fuel scanner) := by
  induction fuel generalizing scanner with
  | zero => exact absurd enough (Nat.not_lt_zero _)
  | succ fuel induction =>
      rw [yylex]
      cases input : scanner.rest with
      | nil => exact finds_endOfFile input
      | cons byte rest =>
          simp only
          rw [← input]
          cases chosen : longestRule scanner.condition.rules scanner.rest with
          | none =>
              obtain ⟨rule, member, matched⟩ :=
                rules_total scanner.condition byte
              exact longestRule_none chosen rule member [byte] rest
                (by simp [input]) matched
          | some choice =>
              obtain ⟨length, action⟩ := choice
              obtain ⟨pattern, member, ⟨front, back, same, rfl, found⟩,
                furthest⟩ := longestRule_some chosen
              have filled : 0 < front.length := by
                apply List.length_pos_of_ne_nil
                rintro rfl
                exact rules_filled _ member found
              have shorter : back.length < fuel := by
                rw [same, List.length_append] at enough
                omega
              have rest := (take_spec same).1
              cases action with
              | skip =>
                  apply finds_skip same found furthest member
                  exact induction (by rw [rest]; exact shorter)
              | openComment =>
                  apply finds_openComment same found furthest member
                  apply induction
                  have kept : (scanner.take front.length).openComment.rest =
                      (scanner.take front.length).rest := rfl
                  rw [kept, rest]
                  exact shorter
              | begin condition =>
                  apply finds_begin same found furthest member
                  apply induction
                  have kept : ((scanner.take front.length).begin
                      condition).rest = (scanner.take front.length).rest := rfl
                  rw [kept, rest]
                  exact shorter
              | ret kind =>
                  have text : scanner.rest.take front.length = front := by
                    simp [same]
                  simp only [text]
                  exact finds_ret same found member

/-- The place that the counters of the scanner reach after some bytes. -/
def scannerPlace (bytes : List UInt8) : Position :=
  (bytes.foldl NetPosition.count ⟨1, 1, 0, 0, 0, 0⟩).place

/-- The token is the slice of the source between two offsets. -/
structure TokenAt (source : List UInt8) (token : Token)
    (start stop : Nat) : Prop where
  lexeme : textBytes token.lexeme = (source.take stop).drop start
  starts : token.span.start = placeAfter (source.take start)
  ends : token.span.finish = placeAfter (source.take stop)
  counted : token.span.finish = scannerPlace (source.take stop)

/-- The tokens follow an offset of the source, with trivia between them. -/
inductive Placed (source : List UInt8) : Nat → List Token → Prop where
  | last {offset : Nat} {token : Token} (eof : token.kind = .eof)
      (inside : offset ≤ source.length)
      (trivia : Trivia [] (source.drop offset))
      (places : TokenAt source token source.length source.length) :
      Placed source offset [token]
  | next {offset start stop : Nat} {token : Token} {tokens : List Token}
      (kind : token.kind ≠ .eof) (before : offset ≤ start)
      (filled : start < stop) (inside : stop ≤ source.length)
      (trivia : Trivia (source.drop start)
        ((source.take start).drop offset))
      (places : TokenAt source token start stop) :
      Placed source stop tokens → Placed source offset (token :: tokens)

theorem value_nonpos {kind : TokenKind} :
    NetTokenKind.value (.token kind) ≤ 0 ↔ kind = .eof := by
  cases kind <;> decide

/-- Errors of the scanner are not tokens. -/
theorem convert_error {kind : NetTokenKind} (token : NetToken)
    (wrong : ∀ kind', kind ≠ .token kind') (numbered : token.kind = kind.value) :
    ∃ error, Lexer.convert token = .error error := by
  unfold Lexer.convert
  rw [numbered]
  cases kind with
  | token kind => exact absurd rfl (wrong kind)
  | unexpectedCharacter => exact ⟨_, rfl⟩
  | unterminatedComment => exact ⟨_, rfl⟩
  | invalidEscape => exact ⟨_, rfl⟩
  | unterminatedString => exact ⟨_, rfl⟩

/-- A running lexer that has read the front of the source. -/
structure Reads (source front : List UInt8) (lexer : Lexer) : Prop where
  source : source = front ++ lexer.scanner.rest
  condition : lexer.scanner.condition = .initial
  place : lexer.scanner.position.place = placeAfter front
  running : lexer.terminal = none

theorem scannerPlace_eq {bytes : List UInt8}
    (short : bytes.length + 1 < 2 ^ 64) :
    scannerPlace bytes = placeAfter bytes := by
  rw [scannerPlace, (NetPosition.place_foldl_count _ _).1]
  exact (placeAfter_append [] bytes (by simpa using short)).1

section Tokens

variable {source front gap text back : List UInt8}
  (encodes : Encodes source) (short : source.length + 1 < 2 ^ 64)
  (same : source = front ++ gap ++ text ++ back)

include encodes short same

/-- A token with a bounded or empty text stands where its text does. -/
theorem tokenAt_text {kind : TokenKind} {place : Position}
    (starts : place = placeAfter (front ++ gap))
    (spelled : kind = .eof ∧ text = [] ∨ kind ≠ .eof ∧ Bounded text) :
    TokenAt source
      ⟨kind, Utf8.fromUtf8Lossy text, place.line, place.column⟩
      (front ++ gap).length (front ++ gap ++ text).length := by
  have encoded : Encodes text := by
    cases spelled with
    | inl last => exact ⟨[], last.2⟩
    | inr token =>
        rw [same] at encodes
        exact encodes_slice encodes token.2
  have lossless := textBytes_fromUtf8Lossy encoded
  have upto : source.take (front ++ gap ++ text).length =
      front ++ gap ++ text := by
    rw [same, List.take_left']
    rfl
  have before : source.take (front ++ gap).length = front ++ gap := by
    rw [same, List.append_assoc (front ++ gap), List.take_left']
    rfl
  have fits : (front ++ gap ++ text).length + 1 < 2 ^ 64 := by
    have lengths := congrArg List.length same
    rw [List.length_append] at lengths
    omega
  have ends : (Token.mk kind (Utf8.fromUtf8Lossy text) place.line
      place.column).span.finish = placeAfter (front ++ gap ++ text) := by
    have moved := (placeAfter_append (front ++ gap) text fits).2
    have spans : textBytes (if kind = .eof then ""
        else Utf8.fromUtf8Lossy text) = text := by
      cases spelled with
      | inl last =>
          rw [if_pos last.1, last.2]
          decide
      | inr token => rw [if_neg token.1, lossless]
    simp only [Token.span, Span.fromText, spans]
    rw [← moved, ← starts]
  constructor
  · rw [upto, lossless]
    simp
  · rw [before]
    exact starts
  · rw [upto]
    exact ends
  · rw [upto, scannerPlace_eq fits]
    exact ends

end Tokens

/-- Either an error of the source, or all of its tokens. -/
def TokensFrom (source : List UInt8) (offset : Nat) :
    Except LexerFailure (List Token) → Prop
  | .ok tokens => Placed source offset tokens
  | .error (.error _) => True
  | .error .jammed => False
  | .error .outOfFuel => False

theorem tokens_placed {fuel : Nat} {source : List UInt8}
    (front : List UInt8) (lexer : Lexer) (encodes : Encodes source)
    (short : source.length + 1 < 2 ^ 64) (reads : Reads source front lexer)
    (enough : lexer.scanner.rest.length < fuel) :
    TokensFrom source front.length (lexer.tokens fuel) := by
  induction fuel generalizing front lexer with
  | zero => exact absurd enough (Nat.not_lt_zero _)
  | succ fuel induction =>
      have finds := yylex_finds (Nat.lt_succ_self lexer.scanner.rest.length)
      unfold Lexer.tokens Lexer.nextToken lexerNext
      rw [reads.running]
      cases scanned : yylex (lexer.scanner.rest.length + 1)
          lexer.scanner with
      | jammed =>
          rw [scanned] at finds
          exact finds.elim
      | outOfFuel =>
          rw [scanned] at finds
          exact finds.elim
      | found kind text scanner =>
          rw [scanned] at finds
          by_cases regular : ∃ kind', kind = .token kind'
          · obtain ⟨kind, rfl⟩ := regular
            have found : FoundFrom lexer.scanner kind text scanner := finds
            obtain ⟨lead, gap, leads, trivia, whole, start, ends⟩ :=
              found.skipped
            rw [reads.condition] at leads
            cases (leads : lead = [])
            have same : source = front ++ gap ++ text ++ scanner.rest := by
              rw [reads.source, whole]
              simp
            have lengths := congrArg List.length same
            simp only [List.length_append] at lengths
            have moved : ∀ bytes rest, source = front ++ bytes ++ rest →
                bytes.foldl Position.count (placeAfter front) =
                  placeAfter (front ++ bytes) := by
              intro bytes rest split
              apply (placeAfter_append front bytes _).1
              have total := congrArg List.length split
              rw [List.length_append] at total
              omega
            have starts : scanner.position.start =
                placeAfter (front ++ gap) := by
              rw [start, reads.place, List.nil_append]
              exact moved gap (text ++ scanner.rest) (by simp [same])
            have places := tokenAt_text encodes short same starts
              (found.token.imp (fun last => ⟨last.1, last.2.1⟩) id)
            have between : (source.take (front ++ gap).length).drop
                front.length = gap := by
              rw [same, List.append_assoc (front ++ gap), List.take_left' rfl]
              simp
            cases found.token with
            | inl last =>
                obtain ⟨rfl, rfl, empty⟩ := last
                rw [empty] at trivia same
                have whole : (front ++ gap).length = source.length := by
                  simp [same]
                have bare : TokensFrom source front.length
                    (.ok [⟨.eof, Utf8.fromUtf8Lossy [],
                      scanner.position.startLine,
                      scanner.position.startColumn⟩]) := by
                  refine .last rfl ?_ ?_ ?_
                  · simp [same]
                  · simpa [same] using trivia
                  · rw [List.append_nil, whole] at places
                    exact places
                exact bare
            | inr token =>
                obtain ⟨other, bounded⟩ := token
                have positive : ¬ NetTokenKind.value (.token kind) ≤ 0 := by
                  rw [value_nonpos]
                  exact other
                have filled : 0 < text.length := by
                  obtain ⟨byte, rest, rfl, _⟩ := bounded.first
                  simp
                have later := induction (front ++ gap ++ text)
                  ⟨scanner, none⟩
                  ⟨same, found.condition, by
                    rw [ends, reads.place, List.nil_append]
                    have moved := moved (gap ++ text) scanner.rest
                      (by simp [same])
                    rw [List.append_assoc]
                    exact moved, rfl⟩
                  (by
                    have length := congrArg List.length reads.source
                    simp only [List.length_append] at length
                    have less : scanner.rest.length < fuel := by omega
                    exact less)
                simp only [positive, if_false, Lexer.convert, fromRaw_value,
                  other, bind, Except.bind, pure, Except.pure]
                cases rest : Lexer.tokens fuel ⟨scanner, none⟩ with
                | error failure =>
                    rw [rest] at later
                    cases failure <;> exact later
                | ok tokens =>
                    rw [rest] at later
                    refine .next other ?_ ?_ ?_ ?_ places later
                    · simp
                    · simp only [List.length_append]
                      omega
                    · simp only [List.length_append]
                      omega
                    · rw [between]
                      have drop : source.drop (front ++ gap).length =
                          text ++ scanner.rest := by
                        rw [same, List.append_assoc (front ++ gap)]
                        simp
                      rw [drop]
                      exact trivia
          · obtain ⟨error, converted⟩ := convert_error
              ⟨kind.value, if kind.value ≤ 0 then [] else text,
                scanner.position.startLine, scanner.position.startColumn⟩
              (fun kind' same => regular ⟨kind', same⟩) rfl
            simp only [converted, bind, Except.bind, pure, Except.pure]
            trivial

/-- Lexing ends with an error of the source or with its tokens. -/
theorem tokenize_total (source : String) :
    TokensFrom (textBytes source) 0 (tokenize source) := by
  unfold tokenize Lexer.new
  by_cases large : (textBytes source).length > Lexer.intMax - 2
  · rw [if_pos large]
    trivial
  · rw [if_neg large]
    have short : (textBytes source).length + 1 < 2 ^ 64 := by
      simp only [Lexer.intMax] at large
      omega
    exact tokens_placed [] _ (encodes_textBytes source) short
      ⟨rfl, rfl, rfl, rfl⟩ (Nat.lt_succ_self _)

/-- The lexemes are the slices of the source between the trivia, and the
places of the tokens are the places of these slices. -/
theorem tokenize_placed (source : String) (tokens : List Token)
    (lexed : tokenize source = .ok tokens) :
    Placed (textBytes source) 0 tokens := by
  have total := tokenize_total source
  rw [lexed] at total
  exact total

theorem tokenize_placed_let :
    Placed (textBytes "/**/let\nx") 0
      [⟨.«let», "let", 1, 5⟩, ⟨.identifier, "x", 2, 1⟩, ⟨.eof, "", 2, 2⟩] :=
  tokenize_placed "/**/let\nx" _ (by decide +kernel)

end NetLang
