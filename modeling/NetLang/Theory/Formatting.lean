import NetLang.Command.Run
import NetLang.Parser.Respelled
import NetLang.Theory.Transparency

/-!
# Formatting is invisible

Two sources with the same lexemes differ in their trivia only.  Every command
does the same with both: it shows the same text, reports the same messages, or
runs the program in the same way.
-/

namespace NetLang

section Outcomes

def Diagnostic.unplaced (diagnostic : Diagnostic) : Diagnostic :=
  ⟨diagnostic.message, none⟩

/-- An outcome without the places of its diagnostics. -/
def Command.Outcome.unplaced : Command.Outcome → Command.Outcome
  | .failed diagnostics => .failed (diagnostics.map Diagnostic.unplaced)
  | outcome => outcome

def Performance.unplaced (performance : Performance) : Performance :=
  ⟨performance.outcome.unplaced, performance.calls⟩

/-- Both sources have the same lexemes of the same kinds, in the same order. -/
def SameLexemes (source source' : String) : Prop :=
  ∃ tokens tokens', tokenize source = .ok tokens ∧
    tokenize source' = .ok tokens' ∧
    tokens'.map Token.spelled = tokens.map Token.spelled

/-- What is written to the standard output, if the command does not fail. -/
def Command.Outcome.output : Command.Outcome → Option (Option String)
  | .shown text => some (some text)
  | .failed _ => some none
  | .executing | .panicked => none

theorem printed_output (filename source : String)
    (outcome : Command.Outcome) :
    (outcome.printed filename source).map Except.toOption =
      outcome.unplaced.output := by
  cases outcome <;> rfl

end Outcomes

section Parsing

variable {α : Type}

/-- The end of a parser without places. -/
def unplacedEnd (result : Except Failure α) : Except Failure α :=
  result.mapError Failure.unplaced

theorem Stable.ends {parse : Parse α} (stable : Stable parse)
    {parser : Parser} (bare : parser.spans = false) :
    unplacedEnd ((parse parser.unplaced).map Prod.fst) =
      unplacedEnd ((parse parser).map Prod.fst) := by
  have ends := stable parser bare
  generalize parse parser = result at ends ⊢
  generalize parse parser.unplaced = result' at ends ⊢
  cases ends with
  | stopped same => exact congrArg Except.error same
  | done value _ => rfl

theorem stable_program (fuel : Nat) :
    Stable (parseProgram (grammar fuel)) := by
  apply (grammarStable fuel).declaration.untilClosed.bind
  exact fun statements => stable_pure (Program.mk statements)

variable {tokens tokens' : List Token}

theorem SingleEof.parsed (single : SingleEof tokens) :
    unplacedEnd ((Parser.mk [] tokens true true).parseProgram.map
        Program.strip) =
      unplacedEnd (Parser.mk [] tokens false true).parseProgram := by
  have nested := grammarMatches (tokens.length + 1)
  have program : Matches Program.strip
      (parseProgram (grammar (tokens.length + 1)))
      (parseProgram (grammar (tokens.length + 1))) := by
    apply nested.declaration.untilClosed.bind
    intro statements
    rw [← stripping.stmtList_eq_map]
    exact matches_pure (Program.mk statements)
  have ends := parsesOrFails (total_program single)
    (single.positioned true true) le_rfl
  have agree : AgreeUpTo Program.strip
      (Parser.mk [] tokens true true).parseProgram
      (Parser.mk [] tokens false true).parseProgram :=
    agree_of_matches program rfl ends
  rcases agree with ⟨error, located, bare⟩ | ⟨tree, located, bare⟩
  · rw [located, bare]
    rfl
  · rw [located, bare]
    rfl

/-- A parser with locations does not depend on the places either, except for
what it locates. -/
theorem SingleEof.respelled (single : SingleEof tokens)
    (single' : SingleEof tokens')
    (same : tokens'.map Token.spelled = tokens.map Token.spelled) :
    unplacedEnd ((Parser.mk [] tokens' true true).parseProgram.map
        Program.strip) =
      unplacedEnd ((Parser.mk [] tokens true true).parseProgram.map
        Program.strip) := by
  have unplaced : (Parser.mk [] tokens' false true).unplaced =
      (Parser.mk [] tokens false true).unplaced := by
    unfold Parser.unplaced
    rw [unplaced_of_spelled same]
  have lengths : tokens'.length = tokens.length := by
    have mapped := congrArg List.length same
    rwa [List.length_map, List.length_map] at mapped
  have stable := stable_program (tokens.length + 1)
  calc unplacedEnd ((Parser.mk [] tokens' true true).parseProgram.map
        Program.strip)
    _ = unplacedEnd (Parser.mk [] tokens' false true).parseProgram :=
      single'.parsed
    _ = unplacedEnd ((parseProgram (grammar (tokens.length + 1))
        (Parser.mk [] tokens' false true)).map Prod.fst) := by
      rw [← lengths]
      rfl
    _ = unplacedEnd ((parseProgram (grammar (tokens.length + 1))
        (Parser.mk [] tokens false true)).map Prod.fst) := by
      rw [← stable.ends rfl, unplaced, stable.ends rfl]
    _ = unplacedEnd ((Parser.mk [] tokens true true).parseProgram.map
        Program.strip) :=
      single.parsed.symm

theorem SingleEof.congr (single : SingleEof tokens)
    (same : tokens'.map Token.spelled = tokens.map Token.spelled) :
    SingleEof tokens' := by
  obtain ⟨before, last, rfl, isEof, others⟩ := single
  rw [List.map_append] at same
  obtain ⟨before', final, rfl, front, back⟩ := List.map_eq_append_iff.mp same
  obtain ⟨last', rfl, spelled⟩ := List.map_eq_singleton_iff.mp back
  refine ⟨before', last', rfl, ?_, ?_⟩
  · exact (congrArg Prod.fst spelled).trans isEof
  · intro token member
    have there := List.mem_map_of_mem (f := Token.spelled) member
    rw [front] at there
    obtain ⟨original, inside, spelled⟩ := List.mem_map.mp there
    have kinds : original.kind = token.kind := congrArg Prod.fst spelled
    rw [← kinds]
    exact others original inside

/-- A parser is refused with one message. -/
theorem new_refused {error : ParseError}
    (refused : Parser.new tokens = .error error) :
    error.message = "token stream must end with a single EOF token" := by
  unfold Parser.new at refused
  split at refused
  · cases refused
    rfl
  · split at refused
    · cases refused
      rfl
    · cases refused

/-- The outcome of a stage that fails as the parser does. -/
def Failure.outcome : Failure → Command.Outcome
  | .error reported => .failed [⟨reported.message, some reported.span⟩]
  | .panic | .outOfFuel => .panicked

/-- The trees are the same up to locations. -/
def sameTree (result : Except Command.Outcome Program) :
    Except Command.Outcome Program :=
  (result.map Program.strip).mapError Command.Outcome.unplaced

theorem SingleEof.parsing (single : SingleEof tokens) :
    sameTree (NetLang.parsing tokens) =
      (unplacedEnd ((Parser.mk [] tokens true true).parseProgram.map
        Program.strip)).mapError fun failure => failure.outcome.unplaced := by
  unfold NetLang.parsing
  rw [new_ok_iff.mpr ⟨single, rfl⟩]
  dsimp only [Parser.withSpans]
  generalize (Parser.mk [] tokens true true).parseProgram = result
  cases result with
  | ok program => rfl
  | error failure => cases failure <;> rfl

/-- Parsing depends on the lexemes and their kinds only. -/
theorem parsing_respelled
    (same : tokens'.map Token.spelled = tokens.map Token.spelled) :
    sameTree (parsing tokens') = sameTree (parsing tokens) := by
  by_cases single : SingleEof tokens
  · rw [single.parsing, (single.congr same).parsing,
      single.respelled (single.congr same) same]
  · have single' : ¬ SingleEof tokens' := fun other =>
      single (other.congr same.symm)
    have refused : ∀ {list : List Token}, ¬ SingleEof list →
        sameTree (parsing list) = .error (.failed
          [⟨"token stream must end with a single EOF token", none⟩]) := by
      intro list other
      cases made : Parser.new list with
      | ok parser => exact absurd (new_ok_iff.mp made).1 other
      | error error =>
          unfold parsing
          rw [made]
          rw [← new_refused made]
          rfl
    rw [refused single, refused single']

end Parsing

section Execution

variable [Formatting]

omit [Formatting] in
theorem diagnostics_unlocated {errors errors' : List SemanticError}
    (same : errors'.map SemanticError.unlocated =
      errors.map SemanticError.unlocated) :
    (errors'.map SemanticError.diagnostic).map Diagnostic.unplaced =
      (errors.map SemanticError.diagnostic).map Diagnostic.unplaced := by
  have factor : Diagnostic.unplaced ∘ SemanticError.diagnostic =
      SemanticError.diagnostic ∘ SemanticError.unlocated := rfl
  rw [List.map_map, List.map_map, factor, ← List.map_map, ← List.map_map, same]

omit [Formatting] in
theorem checking_strip (filename : String) (program : Program) :
    (checking filename program.strip).unplaced =
      (checking filename program).unplaced := by
  have errors := analyze_strip program
  unfold checking
  cases found : analyze program with
  | nil =>
      have accepted : analyze program.strip = [] := by
        simpa [found] using errors
      rw [accepted]
  | cons first rest =>
      rw [found] at errors
      cases found' : analyze program.strip with
      | nil =>
          rw [found'] at errors
          cases errors
      | cons first' rest' =>
          rw [found'] at errors
          exact congrArg Command.Outcome.failed (diagnostics_unlocated errors)

omit [Formatting] in
theorem RuntimeError.diagnostic_congr {error error' : RuntimeError}
    (message : error'.message = error.message)
    (stack : error'.callStack = error.callStack) :
    error'.diagnostic.unplaced = error.diagnostic.unplaced := by
  unfold RuntimeError.diagnostic Diagnostic.unplaced
  rw [message, stack]

omit [Formatting] in
theorem executed_congr {left right : Machine effects Ending}
    (same : SameRun left right) :
    (executed right).unplaced = (executed left).unplaced := by
  have endings := same.ending
  unfold executed
  generalize left.result? = result at endings ⊢
  generalize right.result? = result' at endings ⊢
  cases endings with
  | none => rfl
  | @some ending ending' related =>
      obtain ⟨result, _⟩ := ending
      obtain ⟨result', _⟩ := ending'
      cases result with
      | ok value =>
          cases result' with
          | ok value' => rfl
          | error reason' => exact False.elim related
      | error reason =>
          cases result' with
          | ok value' => cases reason <;> exact False.elim related
          | error reason' =>
              cases reason <;> cases reason'
              case error.error error error' =>
                exact congrArg (fun found => Command.Outcome.failed [found])
                  (RuntimeError.diagnostic_congr related.1 related.2)
              case panic.panic => rfl
              case outOfFuel.outOfFuel => rfl
              all_goals exact False.elim related

theorem running_strip (surroundings : Surroundings) (choices : List Nat)
    (program : Program) :
    (running surroundings choices program.strip).unplaced =
      (running surroundings choices program).unplaced := by
  have errors := analyze_strip program
  unfold running Interpreter.execute executeWithLimits
  cases found : analyze program with
  | nil =>
      have accepted : analyze program.strip = [] := by
        simpa [found] using errors
      have same := runOf_strip surroundings.host surroundings.clock
        surroundings.identity {} program choices
      rw [accepted]
      dsimp only
      rw [if_pos (by decide), if_pos (by decide)]
      unfold Performance.unplaced
      dsimp only
      rw [executed_congr same, same.calls]
  | cons first rest =>
      rw [found] at errors
      cases found' : analyze program.strip with
      | nil =>
          rw [found'] at errors
          cases errors
      | cons first' rest' =>
          rw [found'] at errors
          have diagnostics := diagnostics_unlocated errors
          unfold Performance.unplaced Command.Outcome.unplaced
          exact congrArg (fun list => Performance.mk (.failed list) [])
            diagnostics

variable {surroundings : Surroundings} {choices : List Nat}
  {command : Command} {filename : String}

theorem performOn_strip (program : Program) :
    (performOn surroundings choices command filename
        program.strip).unplaced =
      (performOn surroundings choices command filename program).unplaced := by
  unfold performOn
  by_cases checks : command = .check
  · rw [if_pos checks, if_pos checks]
    unfold Performance.unplaced
    rw [checking_strip]
  · rw [if_neg checks, if_neg checks]
    by_cases runs : command = .run
    · rw [if_pos runs, if_pos runs]
      exact running_strip surroundings choices program
    · rw [if_neg runs, if_neg runs, program.pretty_strip]

end Execution

section Commands

variable [Formatting]

/-- Every command does the same with sources that have the same lexemes. -/
theorem perform_respelled {source source' : String}
    (same : SameLexemes source source') (surroundings : Surroundings)
    (choices : List Nat) (command : Command) (filename : String) :
    (perform surroundings choices command filename source').unplaced =
      (perform surroundings choices command filename source).unplaced := by
  obtain ⟨tokens, tokens', lexed, lexed', spelled⟩ := same
  have trees := parsing_respelled spelled
  unfold perform lexing
  rw [lexed, lexed']
  dsimp only
  by_cases shows : command = .tokens
  · have factor : Token.shown surroundings.escapeDebug =
        (fun entry => padded entry.1.name ++ " " ++
          surroundings.escapeDebug entry.2 ++ "\n") ∘ Token.spelled := rfl
    rw [if_pos shows, if_pos shows, factor, ← List.map_map, ← List.map_map,
      spelled]
  · rw [if_neg shows, if_neg shows]
    generalize parsing tokens = result at trees ⊢
    generalize parsing tokens' = result' at trees ⊢
    cases result with
    | error outcome =>
        cases result' with
        | ok program' => cases trees
        | error outcome' =>
            have same : outcome'.unplaced = outcome.unplaced :=
              Except.error.inj trees
            exact congrArg (fun last => Performance.mk last []) same
    | ok program =>
        cases result' with
        | error outcome' => cases trees
        | ok program' =>
            have same : program'.strip = program.strip :=
              Except.ok.inj trees
            dsimp only
            rw [← performOn_strip program', same, performOn_strip program]

/-- After a file was reformatted, every command makes the same calls of its
host, with the same outcome but for the places of its diagnostics; it writes
the same text to the standard output, and fails if it did before. -/
theorem formatting_invisible {source source' : String}
    (same : SameLexemes source source') (surroundings : Surroundings)
    (choices : List Nat) (filename : String) :
    (∀ command,
      (perform surroundings choices command filename source').unplaced =
        (perform surroundings choices command filename source).unplaced) ∧
    ∀ (name : String) (later : String → Except String String),
      surroundings.readToString filename = .ok source →
      later filename = .ok source' →
      (run { surroundings with readToString := later } choices
          [name, filename]).map Except.toOption =
        (run surroundings choices [name, filename]).map Except.toOption := by
  have performs := perform_respelled same surroundings choices
  refine ⟨fun command => performs command filename, ?_⟩
  intro name later before after
  unfold run
  dsimp only
  cases Command.ofName name with
  | none => rfl
  | some command =>
      dsimp only
      rw [before, after]
      have outcomes := congrArg Performance.outcome (performs command filename)
      rw [printed_output, printed_output]
      exact congrArg Command.Outcome.output outcomes

end Commands

section Example

/-- A system whose files hold one text. -/
def oneFile (text : String) : Surroundings where
  readToString _ := .ok text
  escapeDebug := id
  host := storingHost .null
  clock := 9
  identity := 0

theorem formatting_invisible_comment :
    let _formatting : Formatting := plainFormatting
    (run (oneFile "let x=1;// one") [] ["check", "a"]).map
      Except.toOption = some (some "Semantic checks passed: a\n") := by
  intro _formatting
  have same : SameLexemes "let x = 1 ;" "let x=1;// one" :=
    ⟨[⟨.let, "let", 1, 1⟩, ⟨.identifier, "x", 1, 5⟩, ⟨.equal, "=", 1, 7⟩,
        ⟨.integer, "1", 1, 9⟩, ⟨.semicolon, ";", 1, 11⟩, ⟨.eof, "", 1, 12⟩],
      [⟨.let, "let", 1, 1⟩, ⟨.identifier, "x", 1, 5⟩, ⟨.equal, "=", 1, 6⟩,
        ⟨.integer, "1", 1, 7⟩, ⟨.semicolon, ";", 1, 8⟩, ⟨.eof, "", 1, 15⟩],
      by decide +kernel, by decide +kernel, rfl⟩
  have plain : (run (oneFile "let x = 1 ;") [] ["check", "a"]).map
      Except.toOption = some (some "Semantic checks passed: a\n") := by
    decide +kernel
  obtain ⟨_, runs⟩ := formatting_invisible same (oneFile "let x = 1 ;") [] "a"
  exact (runs "check" (fun _ => .ok "let x=1;// one") rfl rfl).trans plain

end Example

end NetLang
