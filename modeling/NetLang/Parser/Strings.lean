import NetLang.Lexer.Spacing
import NetLang.Parser.Literals

/-!
# String literals

A text is read back from each of its literals, and every string token is the
literal of some text.
-/

namespace NetLang

/-- The character that follows a backslash in place of a character. -/
def escapeCode : Char → Option Char
  | '\n' => some 'n'
  | '\t' => some 't'
  | '\r' => some 'r'
  | '"' => some '"'
  | '\\' => some '\\'
  | _ => none

/-- How a text is spelled between the quotes of a literal.  A tab may be
escaped or not. -/
inductive Spells : List Char → List Char → Prop where
  | nil : Spells [] []
  | plain {c : Char} {text spelling : List Char}
      (other : c ∉ ['\n', '\r', '"', '\\']) :
      Spells text spelling → Spells (c :: text) (c :: spelling)
  | escape {c code : Char} {text spelling : List Char}
      (coded : escapeCode c = some code) :
      Spells text spelling → Spells (c :: text) ('\\' :: code :: spelling)

/-- The literal of a spelling. -/
def quote (spelling : List Char) : String :=
  String.ofList ('"' :: (spelling ++ ['"']))

theorem escapeCode_some {c code : Char} (coded : escapeCode c = some code) :
    c = '\n' ∧ code = 'n' ∨ c = '\t' ∧ code = 't' ∨ c = '\r' ∧ code = 'r' ∨
      c = '"' ∧ code = '"' ∨ c = '\\' ∧ code = '\\' := by
  unfold escapeCode at coded
  split at coded <;> cases coded <;> simp

theorem escaped_of_code {c code : Char} (coded : escapeCode c = some code) :
    escaped code = some c := by
  obtain ⟨rfl, rfl⟩ | ⟨rfl, rfl⟩ | ⟨rfl, rfl⟩ | ⟨rfl, rfl⟩ | ⟨rfl, rfl⟩ :=
    escapeCode_some coded <;> rfl

section Bytes

theorem utf8EncodeChar_injective :
    Function.Injective String.utf8EncodeChar := by
  intro c d same
  have texts : String.ofList [c] = String.ofList [d] := by
    apply textBytes_injective
    rw [textBytes_ofList, textBytes_ofList, List.flatMap_cons,
      List.flatMap_cons, same]
  simpa using congrArg String.toList texts

/-- Bytes that stand for themselves in a string. -/
theorem stringBody_plain {escapes : UInt8 → Bool} {bytes rest : List UInt8}
    (plain : ∀ byte ∈ bytes, Flex.noneOf "\"\\\n\r" byte = true) :
    (Flex.stringBody escapes).Matches (bytes ++ rest) ↔
      (Flex.stringBody escapes).Matches rest := by
  induction bytes with
  | nil => rfl
  | cons byte bytes induction =>
      rw [List.forall_mem_cons] at plain
      rw [List.cons_append, stringBody_cons, induction plain.2]
      constructor
      · intro found
        cases found with
        | inl plain => exact plain.2
        | inr escape =>
            rw [escape.1] at plain
            exact absurd plain.1 (by decide)
      · intro found
        exact .inl ⟨plain.1, found⟩

theorem plain_bytes {c : Char} (other : c ∉ ['\n', '\r', '"', '\\']) :
    ∀ byte ∈ String.utf8EncodeChar c,
      Flex.noneOf "\"\\\n\r" byte = true := by
  intro byte member
  by_contra special
  have listed : byte = 34 ∨ byte = 92 ∨ byte = 10 ∨ byte = 13 := by
    have last : byte ≠ 34 → byte ≠ 92 → byte ≠ 10 → byte = 13 := by
      simpa [Flex.noneOf, letters] using special
    tauto
  have ascii : byte < 128 := by
    obtain rfl | rfl | rfl | rfl := listed <;> decide
  have alone := utf8EncodeChar_ascii member ascii
  have quote : String.utf8EncodeChar '"' = [34] := by decide
  have slash : String.utf8EncodeChar '\\' = [92] := by decide
  have newline : String.utf8EncodeChar '\n' = [10] := by decide
  have carriage : String.utf8EncodeChar '\r' = [13] := by decide
  apply other
  obtain rfl | rfl | rfl | rfl := listed
  · simp [utf8EncodeChar_injective (alone.trans quote.symm)]
  · simp [utf8EncodeChar_injective (alone.trans slash.symm)]
  · simp [utf8EncodeChar_injective (alone.trans newline.symm)]
  · simp [utf8EncodeChar_injective (alone.trans carriage.symm)]

end Bytes

/-- The bytes that may follow a backslash. -/
abbrev escapeBytes : UInt8 → Bool :=
  Flex.oneOf "ntr\"\\"

theorem Spells.body {text spelling : List Char}
    (spells : Spells text spelling) :
    (Flex.stringBody escapeBytes).Matches
      (spelling.flatMap String.utf8EncodeChar) := by
  induction spells with
  | nil => exact stringBody_nil
  | plain other _ induction =>
      rw [List.flatMap_cons, stringBody_plain (plain_bytes other)]
      exact induction
  | @escape c code text spelling coded _ induction =>
      have slash : String.utf8EncodeChar '\\' = [92] := by decide
      have byte : ∃ byte, String.utf8EncodeChar code = [byte] ∧
          escapeBytes byte = true := by
        obtain ⟨_, rfl⟩ | ⟨_, rfl⟩ | ⟨_, rfl⟩ | ⟨_, rfl⟩ | ⟨_, rfl⟩ :=
          escapeCode_some coded
        · exact ⟨110, by decide, by decide⟩
        · exact ⟨116, by decide, by decide⟩
        · exact ⟨114, by decide, by decide⟩
        · exact ⟨34, by decide, by decide⟩
        · exact ⟨92, by decide, by decide⟩
      obtain ⟨byte, encoded, accepted⟩ := byte
      rw [List.flatMap_cons, List.flatMap_cons, slash, encoded]
      exact stringBody_cons.mpr
        (.inr ⟨rfl, byte, _, rfl, accepted, induction⟩)

/-- What may follow a backslash is the code of some character. -/
theorem code_of_byte {code : Char} {byte : UInt8}
    (accepted : escapeBytes byte = true)
    (encoded : String.utf8EncodeChar code = [byte]) :
    ∃ c, escapeCode c = some code := by
  have listed : byte = 110 ∨ byte = 116 ∨ byte = 114 ∨ byte = 34 ∨
      byte = 92 := by
    simpa [escapeBytes, Flex.oneOf, letters] using accepted
  have n : String.utf8EncodeChar 'n' = [110] := by decide
  have t : String.utf8EncodeChar 't' = [116] := by decide
  have r : String.utf8EncodeChar 'r' = [114] := by decide
  have quote : String.utf8EncodeChar '"' = [34] := by decide
  have slash : String.utf8EncodeChar '\\' = [92] := by decide
  obtain rfl | rfl | rfl | rfl | rfl := listed
  · cases utf8EncodeChar_injective (encoded.trans n.symm)
    exact ⟨'\n', rfl⟩
  · cases utf8EncodeChar_injective (encoded.trans t.symm)
    exact ⟨'\t', rfl⟩
  · cases utf8EncodeChar_injective (encoded.trans r.symm)
    exact ⟨'\r', rfl⟩
  · cases utf8EncodeChar_injective (encoded.trans quote.symm)
    exact ⟨'"', rfl⟩
  · cases utf8EncodeChar_injective (encoded.trans slash.symm)
    exact ⟨'\\', rfl⟩

/-- A string that begins with a special character begins with a backslash. -/
theorem special_opens {c : Char} {rest : List UInt8}
    (special : c ∈ ['\n', '\r', '"', '\\'])
    (body : (Flex.stringBody escapeBytes).Matches
      (String.utf8EncodeChar c ++ rest)) : c = '\\' := by
  have newline : String.utf8EncodeChar '\n' = [10] := by decide
  have carriage : String.utf8EncodeChar '\r' = [13] := by decide
  have quote : String.utf8EncodeChar '"' = [34] := by decide
  simp only [List.mem_cons, List.not_mem_nil, or_false] at special
  obtain rfl | rfl | rfl | rfl := special
  · rw [newline, List.singleton_append, stringBody_cons] at body
    exact absurd body (by simp [Flex.noneOf, letters])
  · rw [carriage, List.singleton_append, stringBody_cons] at body
    exact absurd body (by simp [Flex.noneOf, letters])
  · rw [quote, List.singleton_append, stringBody_cons] at body
    exact absurd body (by simp [Flex.noneOf, letters])
  · rfl

/-- A character whose encoding begins with a byte of an escape is that byte. -/
theorem escape_encoded {code : Char} {byte : UInt8} {rest tail : List UInt8}
    (accepted : escapeBytes byte = true)
    (same : String.utf8EncodeChar code ++ rest = byte :: tail) :
    String.utf8EncodeChar code = [byte] := by
  have ascii : byte < 128 := by
    have listed : byte = 110 ∨ byte = 116 ∨ byte = 114 ∨ byte = 34 ∨
        byte = 92 := by
      simpa [escapeBytes, Flex.oneOf, letters] using accepted
    obtain rfl | rfl | rfl | rfl | rfl := listed <;> decide
  have filled : String.utf8EncodeChar code ≠ [] := String.utf8EncodeChar_ne_nil
  obtain ⟨first, others, encoded⟩ := List.exists_cons_of_ne_nil filled
  rw [encoded, List.cons_append, List.cons.injEq] at same
  apply utf8EncodeChar_ascii _ ascii
  rw [encoded, same.1]
  exact List.mem_cons_self

theorem spells_of_body {spelling : List Char}
    (body : (Flex.stringBody escapeBytes).Matches
      (spelling.flatMap String.utf8EncodeChar)) :
    ∃ text, Spells text spelling := by
  induction size : spelling.length using Nat.strong_induction_on
    generalizing spelling with
  | _ length induction =>
      cases spelling with
      | nil => exact ⟨[], .nil⟩
      | cons c spelling =>
          rw [List.flatMap_cons] at body
          by_cases special : c ∈ ['\n', '\r', '"', '\\']
          · cases special_opens special body
            have slash : String.utf8EncodeChar '\\' = [92] := by decide
            rw [slash, List.singleton_append, stringBody_cons] at body
            cases body with
            | inl plain => exact absurd plain.1 (by decide)
            | inr escape =>
                obtain ⟨_, byte, tail, same, accepted, later⟩ := escape
                cases spelling with
                | nil => cases same
                | cons code spelling =>
                    rw [List.flatMap_cons] at same
                    have encoded := escape_encoded accepted same
                    rw [encoded, List.singleton_append, List.cons.injEq]
                      at same
                    obtain ⟨c, coded⟩ := code_of_byte accepted encoded
                    rw [← same.2] at later
                    obtain ⟨text, spells⟩ := induction spelling.length
                      (by simp only [← size, List.length_cons]; omega)
                      later rfl
                    exact ⟨c :: text, .escape coded spells⟩
          · rw [stringBody_plain (plain_bytes special)] at body
            obtain ⟨text, spells⟩ :=
              induction spelling.length (by simp [← size]) body rfl
            exact ⟨c :: text, .plain special spells⟩

theorem Spells.decode {text spelling : List Char}
    (spells : Spells text spelling) : decodeEscapes spelling = some text := by
  induction spells with
  | nil => rfl
  | @plain c text spelling other _ induction =>
      have slash : c ≠ '\\' := by
        intro same
        exact other (by simp [same])
      rw [decodeEscapes, induction]
      · rfl
      · simp [slash]
      · simp [slash]
  | @escape c code text spelling coded _ induction =>
      rw [decodeEscapes, escaped_of_code coded, induction]
      rfl

theorem quoted_quote (spelling : List Char) :
    quoted (quote spelling).toList = some spelling := by
  have suffix : ['"'].isSuffixOf (spelling ++ ['"']) = true := by
    rw [List.isSuffixOf_iff_suffix]
    exact List.suffix_append spelling _
  rw [quote, String.toList_ofList, quoted, stripSuffix, if_pos suffix]
  simp

theorem Spells.decodeString {text spelling : List Char}
    (spells : Spells text spelling) {token : Token}
    (lexeme : token.lexeme = quote spelling) :
    token.decodeString = .ok (String.ofList text) := by
  rw [Token.decodeString, lexeme, quoted_quote]
  simp only [spells.decode]

theorem textBytes_quote (spelling : List Char) :
    textBytes (quote spelling) =
      34 :: (spelling.flatMap String.utf8EncodeChar ++ [34]) := by
  have mark : String.utf8EncodeChar '"' = [34] := by decide
  rw [quote, textBytes_ofList, List.flatMap_cons, List.flatMap_append,
    List.flatMap_cons, mark]
  rfl

/-- The lexeme of a string token is the literal of a text. -/
theorem TokenText.spells {text : List UInt8}
    (token : TokenText .string text) (encodes : Encodes text) :
    ∃ value spelling, Spells value spelling ∧
      Utf8.fromUtf8Lossy text = quote spelling := by
  cases token with
  | solid _ other => exact absurd rfl other
  | @string body inside =>
      have whole : Encodes ([] ++ 34 :: (body ++ [34])) := encodes
      obtain ⟨_, _, rest⟩ := encodes_cut whole (by decide)
      obtain ⟨⟨spelling, rfl⟩, _, _⟩ := encodes_cut rest (by decide)
      obtain ⟨value, spells⟩ := spells_of_body inside
      refine ⟨value, spelling, spells, ?_⟩
      apply textBytes_injective
      rw [textBytes_fromUtf8Lossy encodes, textBytes_quote]

/-- The rules in front of the ones of strings match nothing that begins with a
quote. -/
theorem earliestRule_quote {word : List UInt8}
    (found : (Flex.string escapeBytes).Matches (34 :: word)) :
    earliestRule initialRules (34 :: word) =
      some (.ret (.token .string)) := by
  have dead : ∀ rule ∈ initialRules.take 62,
      (rule.1.step 34).isNone = true := by
    decide +kernel
  have split : initialRules = initialRules.take 62 ++
      (Flex.string escapeBytes, .ret (.token .string)) ::
        initialRules.drop 63 := by
    rfl
  rw [split, earliestRule_append, earliestRule,
    if_pos (Regex.accepts_iff.mpr found)]
  intro rule member matched
  exact Regex.not_matches_of_step (dead rule member) matched

theorem Spells.munched {text spelling : List Char}
    (spells : Spells text spelling) :
    Munched (textBytes (quote spelling))
      [(.string, textBytes (quote spelling)), (.eof, [])] := by
  have found : (Flex.string escapeBytes).Matches
      (34 :: (spelling.flatMap String.utf8EncodeChar ++ [34])) :=
    string_matches.mpr ⟨_, rfl, spells.body⟩
  have selects : Selects initialRules
      (34 :: (spelling.flatMap String.utf8EncodeChar ++ [34])) []
      (.ret (.token .string)) := by
    refine ⟨earliestRule_quote found, ?_⟩
    intro rule _
    rw [Regex.noLonger_append]
    intro more back same filled
    exact absurd (List.append_eq_nil_iff.mp same.symm).1 filled
  have whole := Munched.next .none selects (.last .none)
  rw [List.nil_append, List.append_nil] at whole
  rw [textBytes_quote]
  exact whole

/-- The lexers that reading some tokens of a source leaves. -/
inductive Lexer.Reached (source : String) : Lexer → Prop where
  | new {lexer : Lexer} :
      Lexer.new source = .ok lexer → Lexer.Reached source lexer
  | next {lexer lexer' : Lexer} {result : Except LexerError Token} :
      Lexer.Reached source lexer → lexer.nextToken = .ok (result, lexer') →
      Lexer.Reached source lexer'

/-- An error of the scanner ends the lexer. -/
theorem nextToken_error {lexer lexer' : Lexer} {error : LexerError}
    (running : lexer.terminal = none)
    (result : lexer.nextToken = .ok (.error error, lexer')) :
    lexer'.terminal = some (.error error) := by
  unfold Lexer.nextToken lexerNext at result
  rw [running] at result
  cases scanned : yylex (lexer.scanner.rest.length + 1) lexer.scanner with
  | jammed => simp [scanned, bind, Except.bind] at result
  | outOfFuel => simp [scanned, bind, Except.bind] at result
  | found kind text scanner =>
      simp only [scanned, bind, Except.bind, pure, Except.pure,
        Except.ok.injEq, Prod.mk.injEq] at result
      obtain ⟨converted, rfl⟩ := result
      have nonpositive : kind.value ≤ 0 := by
        cases kind with
        | token kind => simp [Lexer.convert] at converted
        | unexpectedCharacter => decide
        | unterminatedComment => decide
        | invalidEscape => decide
        | unterminatedString => decide
      rw [← converted]
      exact if_pos nonpositive

/-- A reached lexer has ended, or it reads the rest of the source. -/
theorem Lexer.Reached.reads {source : String} {lexer : Lexer}
    (reached : Lexer.Reached source lexer) :
    (∃ result, lexer.terminal = some result ∧
      ∀ token, result = .ok token → token.kind = .eof) ∨
    lexer.terminal = none ∧ lexer.scanner.condition = .initial ∧
      ∃ front, textBytes source = front ++ lexer.scanner.rest := by
  induction reached with
  | @new lexer created =>
      right
      unfold Lexer.new at created
      split at created
      case isTrue => cases created
      case isFalse =>
        cases created
        exact ⟨rfl, rfl, [], rfl⟩
  | @next lexer lexer' result _ called induction =>
      cases induction with
      | inl ended =>
          obtain ⟨kept, terminal, eof⟩ := ended
          left
          rw [Lexer.nextToken, terminal] at called
          cases called
          exact ⟨_, terminal, eof⟩
      | inr running =>
          obtain ⟨running, initial, front, source'⟩ := running
          cases result with
          | ok token =>
              obtain ⟨gap, text, reads⟩ :=
                nextToken_reads running initial called
              cases reads.token with
              | inl last =>
                  obtain ⟨eof, _, _, terminal⟩ := last
                  left
                  refine ⟨.ok token, terminal, ?_⟩
                  intro token' same
                  cases same
                  exact eof
              | inr token =>
                  right
                  refine ⟨token.2, reads.condition, front ++ gap ++ text, ?_⟩
                  rw [source', reads.input]
                  simp
          | error error =>
              left
              refine ⟨.error error, nextToken_error running called, ?_⟩
              intro token same
              cases same

/-- The lexeme of a string token of a source is the literal of a text. -/
theorem Lexer.Reached.spells {source : String} {lexer lexer' : Lexer}
    {token : Token} (reached : Lexer.Reached source lexer)
    (result : lexer.nextToken = .ok (.ok token, lexer'))
    (kind : token.kind = .string) :
    ∃ value spelling, Spells value spelling ∧
      token.lexeme = quote spelling := by
  cases reached.reads with
  | inl ended =>
      obtain ⟨kept, terminal, eof⟩ := ended
      rw [Lexer.nextToken, terminal] at result
      cases result
      rw [eof token rfl] at kind
      cases kind
  | inr running =>
      obtain ⟨running, initial, front, source'⟩ := running
      obtain ⟨gap, text, reads⟩ := nextToken_reads running initial result
      cases reads.token with
      | inl last =>
          rw [last.1] at kind
          cases kind
      | inr next =>
          obtain ⟨_, bounded, spelled⟩ := selects_kind next.1
          rw [kind] at spelled
          have encodes := encodes_textBytes source
          rw [source', reads.input, ← List.append_assoc,
            ← List.append_assoc] at encodes
          rw [reads.lexeme]
          exact spelled.spells (encodes_slice encodes bounded)

/-- The spelling with escapes for the characters that have one. -/
def debugSpelling (text : List Char) : List Char :=
  text.flatMap fun c => match escapeCode c with
    | some code => ['\\', code]
    | none => [c]

/-- Every text has a spelling. -/
theorem debugSpelling_spells (text : List Char) :
    Spells text (debugSpelling text) := by
  induction text with
  | nil => exact .nil
  | cons c text induction =>
      unfold debugSpelling at induction ⊢
      rw [List.flatMap_cons]
      cases coded : escapeCode c with
      | some code => exact .escape coded induction
      | none =>
          refine .plain ?_ induction
          intro special
          simp only [List.mem_cons, List.not_mem_nil, or_false] at special
          obtain rfl | rfl | rfl | rfl := special <;> cases coded

/-- A text is read back from each of its literals that is not too large, and
every string token of the lexer is decoded. -/
theorem string_literals :
    (∀ (text : String) (spelling : List Char), Spells text.toList spelling →
      (textBytes (quote spelling)).length ≤ Lexer.intMax - 2 →
      ∃ first last, tokenize (quote spelling) = .ok [first, last] ∧
        first.kind = .string ∧ first.lexeme = quote spelling ∧
        last.kind = .eof ∧ first.decodeString = .ok text) ∧
    (∀ (source : String) (lexer lexer' : Lexer) (token : Token),
      Lexer.Reached source lexer →
      lexer.nextToken = .ok (.ok token, lexer') → token.kind = .string →
      ∃ text, token.decodeString = .ok text) := by
  constructor
  · intro text spelling spells fits
    obtain ⟨tokens, lexed, items⟩ := tokenize_of_munched spells.munched fits
    obtain ⟨first, rest, rfl, head, tail⟩ := List.map_eq_cons_iff.mp items
    obtain ⟨last, rfl, last'⟩ := List.map_eq_singleton_iff.mp tail
    have lexeme : first.lexeme = quote spelling :=
      textBytes_injective (congrArg Prod.snd head)
    have decoded := spells.decodeString lexeme
    rw [String.ofList_toList] at decoded
    exact ⟨first, last, lexed, congrArg Prod.fst head, lexeme,
      congrArg Prod.fst last', decoded⟩
  · intro source lexer lexer' token reached result kind
    obtain ⟨value, spelling, spells, lexeme⟩ := reached.spells result kind
    exact ⟨String.ofList value, spells.decodeString lexeme⟩

theorem string_literals_quotes :
    (∃ first last, tokenize (quote ['a', '\\', 'n', '\\', '"']) =
        .ok [first, last] ∧ first.kind = .string ∧
      first.lexeme = quote ['a', '\\', 'n', '\\', '"'] ∧
      last.kind = .eof ∧ first.decodeString = .ok "a\n\"") ∧
    ∃ text, Token.decodeString ⟨.string, "\"a\"", 1, 1⟩ = .ok text := by
  have spells : Spells "a\n\"".toList ['a', '\\', 'n', '\\', '"'] :=
    .plain (by decide) (.escape rfl (.escape rfl .nil))
  refine ⟨string_literals.1 "a\n\"" _ spells (by decide +kernel), ?_⟩
  exact string_literals.2 "\"a\"" _ _ ⟨.string, "\"a\"", 1, 1⟩ (.new rfl)
    (by rfl) rfl

theorem spells_replicate (count : Nat) :
    Spells (List.replicate count 'a') (List.replicate count 'a') := by
  induction count with
  | zero => exact .nil
  | succ count induction =>
      rw [List.replicate_succ]
      exact .plain (by decide) induction

/-- A text can have a literal that is too large for the lexer. -/
theorem string_literal_oversized :
    Spells (String.ofList (List.replicate (2 ^ 31) 'a')).toList
        (List.replicate (2 ^ 31) 'a') ∧
      ∀ tokens, tokenize (quote (List.replicate (2 ^ 31) 'a')) ≠
        .ok tokens := by
  have letter : String.utf8EncodeChar 'a' = [97] := by decide
  have measured : ∀ count, ((List.replicate count 'a').flatMap
      String.utf8EncodeChar).length = count := by
    intro count
    induction count with
    | zero => rfl
    | succ count induction =>
        rw [List.replicate_succ, List.flatMap_cons, List.length_append,
          induction, letter, List.length_singleton]
        omega
  constructor
  · rw [String.toList_ofList]
    exact spells_replicate _
  · intro tokens lexed
    obtain ⟨_, small⟩ := tokenize_munched lexed
    rw [textBytes_quote, List.length_cons, List.length_append, measured,
      Lexer.intMax] at small
    omega

end NetLang
