import NetLang.Lexer.Spacing

/-!
# Rendering of diagnostics

A diagnostic shows one line of the source and underlines a part of it.
Columns of the compiler count bytes, columns of the display count characters
with tabs expanded; for a token of the source both are those of its lexeme.
-/

namespace NetLang

section Source

/-- Tabs are shown as four spaces. -/
def expandTabs (line : List Char) : List Char :=
  line.flatMap fun c => if c = '\t' then List.replicate 4 ' ' else [c]

/-- The bytes of some characters. -/
def encode (line : List Char) : List UInt8 :=
  line.flatMap String.utf8EncodeChar

/-- The characters with their byte offsets. -/
def charIndices : Nat → List Char → List (Nat × Char)
  | _, [] => []
  | offset, c :: rest =>
      (offset, c) :: charIndices (offset + c.utf8Size) rest

def displayWidth (line : List Char) (byteLimit : Nat) : Nat :=
  (((charIndices 0 line).takeWhile fun entry => entry.1 < byteLimit).map
    fun entry => if entry.2 = '\t' then 4 else 1).sum

/-- The line of the source that is shown, without its carriage returns. -/
def sourceLine (source : String) (line : Nat) : List Char :=
  ((source.toList.splitOn '\n')[line - 1]?.getD []).rdropWhile (· = '\r')

/-- The byte before which the marker ends. -/
def endByte (shown : List Char) (span : Span) (line byteColumn : Nat) : Nat :=
  if span.finish.line > line then (encode shown).length
  else if span.finish.line = line then span.finish.column - 1
  else byteColumn

def markerWidth (shown : List Char) (span : Span) (line byteColumn : Nat) :
    Nat :=
  max (displayWidth shown (endByte shown span line byteColumn) -
    displayWidth shown byteColumn) 1

def blanks (width : Nat) : List Char :=
  List.replicate width ' '

/-- The row of the source line begins with the number of the line. -/
def label (line : Nat) : List Char :=
  (toString line).toList ++ [' ', '|', ' ']

/-- The row below leaves the number blank. -/
def gutter (line : Nat) : List Char :=
  ' ' :: blanks (toString line).length ++ ['|', ' ']

def marker (width : Nat) : List Char :=
  '^' :: List.replicate (width - 1) '~'

def header (filename message : String) (line column : Nat) : List Char :=
  ("error: " ++ message ++ "\n ").toList ++ blanks (toString line).length ++
    ("--> " ++ filename ++ ":" ++ toString line ++ ":" ++
      toString column).toList

def continuation (span : Span) (line : Nat) : List Char :=
  if span.finish.line > line then
    ("  = span continues to " ++ toString span.finish.line ++ ":" ++
      toString span.finish.column ++ "\n").toList
  else []

/-- Render the first line of a range; the range may be any. -/
def renderSpan (filename source : String) (span : Span) (message : String) :
    String :=
  let line := max span.start.line 1
  let column := max span.start.column 1
  let shown := sourceLine source line
  let byteColumn := column - 1
  String.ofList (header filename message line column ++
    '\n' :: (label line ++ expandTabs shown) ++
    '\n' :: (gutter line ++ blanks (displayWidth shown byteColumn) ++
      marker (markerWidth shown span line byteColumn)) ++
    '\n' :: continuation span line)

end Source

section Widths

@[simp] theorem expandTabs_append (front back : List Char) :
    expandTabs (front ++ back) = expandTabs front ++ expandTabs back :=
  List.flatMap_append

@[simp] theorem encode_append (front back : List Char) :
    encode (front ++ back) = encode front ++ encode back :=
  List.flatMap_append

theorem length_encode_cons (c : Char) (rest : List Char) :
    (encode (c :: rest)).length = c.utf8Size + (encode rest).length := by
  simp [encode]

theorem width_charIndices (offset : Nat) (line : List Char) :
    ((charIndices offset line).map fun entry =>
      if entry.2 = '\t' then 4 else 1).sum = (expandTabs line).length := by
  induction line generalizing offset with
  | nil => rfl
  | cons c rest induction =>
      rw [charIndices, List.map_cons, List.sum_cons, induction, expandTabs,
        expandTabs, List.flatMap_cons, List.length_append]
      congr 1
      split <;> rfl

/-- The characters before a limit that is a boundary of characters. -/
theorem charIndices_takeWhile (offset : Nat) (front back : List Char) :
    (charIndices offset (front ++ back)).takeWhile (fun entry =>
      entry.1 < offset + (encode front).length) =
        charIndices offset front := by
  induction front generalizing offset with
  | nil =>
      cases back with
      | nil => rfl
      | cons c rest => simp [charIndices, encode]
  | cons c front induction =>
      have later := induction (offset + c.utf8Size)
      have size := c.utf8Size_pos
      rw [length_encode_cons]
      rw [List.cons_append, charIndices, charIndices,
        List.takeWhile_cons_of_pos (by simp; omega)]
      rw [← Nat.add_assoc, later]

theorem displayWidth_append (front back : List Char) :
    displayWidth (front ++ back) (encode front).length =
      (expandTabs front).length := by
  have before := charIndices_takeWhile 0 front back
  rw [Nat.zero_add] at before
  rw [displayWidth, before, width_charIndices]

/-- No prefix of a line is wider than the line. -/
theorem displayWidth_le (line : List Char) (byteLimit : Nat) :
    displayWidth line byteLimit ≤ (expandTabs line).length := by
  rw [displayWidth, ← width_charIndices 0 line]
  exact ((List.takeWhile_sublist _).map _).sum_le_sum fun _ _ => Nat.zero_le _

theorem expandTabs_length_le (line : List Char) :
    line.length ≤ (expandTabs line).length ∧
      (expandTabs line).length ≤ 4 * (encode line).length := by
  induction line with
  | nil => exact ⟨le_rfl, le_rfl⟩
  | cons c rest induction =>
      have size := c.utf8Size_pos
      have head : 1 ≤ (if c = '\t' then List.replicate 4 ' '
          else [c]).length ∧ (if c = '\t' then List.replicate 4 ' '
          else [c]).length ≤ 4 := by
        split <;> simp
      rw [length_encode_cons, expandTabs, List.flatMap_cons,
        List.length_append, List.length_cons]
      rw [expandTabs] at induction
      omega

end Widths

section Lines

theorem encode_injective : Function.Injective encode := by
  intro line other same
  rw [encode, encode, ← textBytes_ofList, ← textBytes_ofList] at same
  exact String.ofList_injective (textBytes_injective same)

theorem newline_mem_encodeChar {c : Char} :
    10 ∈ String.utf8EncodeChar c ↔ c = '\n' := by
  constructor
  · intro member
    have single := utf8EncodeChar_ascii member (by decide)
    have same : encode [c] = encode ['\n'] := by
      simp only [encode, List.flatMap_singleton, single]
      decide
    exact List.singleton_inj.mp (encode_injective same)
  · rintro rfl
    decide

theorem newline_mem_encode {line : List Char} :
    10 ∈ encode line ↔ '\n' ∈ line := by
  simp [encode, newline_mem_encodeChar]

theorem count_encode (line : List Char) :
    (encode line).count 10 = line.count '\n' := by
  induction line with
  | nil => rfl
  | cons c rest induction =>
      rw [encode, List.flatMap_cons, List.count_append, List.count_cons,
        ← induction, encode, Nat.add_comm]
      congr 1
      by_cases newline : c = '\n'
      · subst newline
        decide
      · have absent := mt newline_mem_encodeChar.mp newline
        simp [List.count_eq_zero.mpr absent, newline]

/-- Some lines with their ends. -/
def Lines (above : List Char) : Prop :=
  above = [] ∨ ∃ front, above = front ++ ['\n']

/-- The last line of a text. -/
theorem exists_line (text : List Char) :
    ∃ above line, text = above ++ line ∧ Lines above ∧ '\n' ∉ line := by
  refine ⟨text.rdropWhile (· ≠ '\n'), text.rtakeWhile (· ≠ '\n'),
    List.rdropWhile_append_rtakeWhile.symm, ?_, ?_⟩
  · by_cases empty : text.rdropWhile (· ≠ '\n') = []
    · exact .inl empty
    · right
      have last := List.rdropWhile_last_not _ _ empty
      have newline : (text.rdropWhile (· ≠ '\n')).getLast empty = '\n' := by
        simpa using last
      have whole := (List.dropLast_append_getLast empty).symm
      rw [newline] at whole
      exact ⟨_, whole⟩
  · intro member
    have other := List.mem_rtakeWhile_imp member
    simp at other

/-- The place after a text is the line and the byte column of its end. -/
theorem placeAfter_encode {above line : List Char} (lines : Lines above)
    (single : '\n' ∉ line) :
    placeAfter (encode (above ++ line)) =
      ⟨above.count '\n' + 1, (encode line).length + 1⟩ := by
  have plain : 10 ∉ encode line := mt newline_mem_encode.mp single
  have all : ∀ byte ∈ (encode line).reverse, decide (byte ≠ 10) = true := by
    intro byte member
    rw [decide_eq_true_eq]
    rintro rfl
    exact plain (List.mem_reverse.mp member)
  have column : ((encode (above ++ line)).reverse.takeWhile (· ≠ 10)).length =
      (encode line).length := by
    rw [encode_append, List.reverse_append, List.takeWhile_append_of_pos all,
      List.length_append, List.length_reverse]
    obtain rfl | ⟨front, rfl⟩ := lines
    · simp [encode]
    · have last : encode ['\n'] = [10] := by decide
      rw [encode_append, last]
      simp
  rw [placeAfter, column, count_encode, List.count_append,
    List.count_eq_zero.mpr single, Nat.add_zero]

theorem length_splitOn (text : List Char) :
    (text.splitOn '\n').length = text.count '\n' + 1 := by
  induction text with
  | nil => rfl
  | cons c rest induction =>
      rw [List.splitOn_cons_eq_if_modifyHead, List.count_cons]
      split
      · rw [List.length_cons, induction]
      · rw [List.length_modifyHead, induction]

theorem getElem?_splitOn {above : List Char} (lines : Lines above)
    (text : List Char) :
    ((above ++ text).splitOn '\n')[above.count '\n']? =
      (text.splitOn '\n').head? := by
  obtain rfl | ⟨front, rfl⟩ := lines
  · exact List.head?_eq_getElem?.symm
  · have whole : front ++ ['\n'] ++ text = front ++ '\n' :: text := by simp
    have count : (front ++ ['\n']).count '\n' =
        (front.splitOn '\n').length := by
      rw [length_splitOn, List.count_append]
      rfl
    rw [whole, List.splitOn_append_cons_self, count,
      List.getElem?_append_right le_rfl, Nat.sub_self,
      List.head?_eq_getElem?]

theorem head?_splitOn {line : List Char} (single : '\n' ∉ line)
    (text : List Char) :
    ∃ rest, ((line ++ text).splitOn '\n').head? = some (line ++ rest) := by
  induction line with
  | nil =>
      obtain ⟨rest, later, same⟩ :=
        List.exists_cons_of_ne_nil (List.splitOn_ne_nil '\n' text)
      exact ⟨rest, by rw [List.nil_append, same]; rfl⟩
  | cons c line induction =>
      rw [List.mem_cons, not_or] at single
      obtain ⟨rest, head⟩ := induction single.2
      refine ⟨rest, ?_⟩
      have other : (c == '\n') = false :=
        beq_eq_false_iff_ne.mpr (Ne.symm single.1)
      rw [List.cons_append, List.splitOn_cons_eq_if_modifyHead, other,
        if_neg Bool.false_ne_true, List.head?_modifyHead, head]
      rfl

theorem rdropWhile_append {line : List Char} {last : Char}
    (keeps : last ≠ '\r') (rest : List Char) :
    (line ++ [last] ++ rest).rdropWhile (· = '\r') =
      line ++ [last] ++ rest.rdropWhile (· = '\r') := by
  induction rest using List.reverseRecOn with
  | nil =>
      rw [List.append_nil, List.rdropWhile_concat_neg _ _ _ (by simpa)]
      simp
  | append_singleton rest c induction =>
      rw [← List.append_assoc, List.rdropWhile_concat,
        List.rdropWhile_concat, induction]
      split <;> simp

end Lines

section Tokens

theorem stringBody_oneLine {escapes : UInt8 → Bool} {body : List UInt8}
    (plain : ∀ byte, escapes byte = true → byte ≠ 10 ∧ byte ≠ 13)
    (found : (Flex.stringBody escapes).Matches body) :
    ∀ byte ∈ body, byte ≠ 10 ∧ byte ≠ 13 := by
  induction same : body.length using Nat.strong_induction_on
    generalizing body with
  | _ length induction =>
      cases body with
      | nil => exact fun _ member => nomatch member
      | cons byte body =>
          rw [List.length_cons] at same
          rcases stringBody_cons.mp found with
            ⟨first, later⟩ | ⟨rfl, code, tail, rfl, escaped, later⟩
          · intro other member
            rcases List.mem_cons.mp member with rfl | inside
            · constructor <;> rintro rfl <;> exact absurd first (by decide)
            · exact induction body.length (by omega) later rfl other inside
          · rw [List.length_cons] at same
            intro other member
            rcases List.mem_cons.mp member with rfl | inside
            · decide
            · rcases List.mem_cons.mp inside with rfl | inside
              · exact plain _ escaped
              · exact induction tail.length (by omega) later rfl other inside

/-- No token has a part of a line end. -/
theorem TokenText.plain {kind : TokenKind} {text : List UInt8}
    (token : TokenText kind text) :
    ∀ byte ∈ text, byte ≠ 10 ∧ byte ≠ 13 := by
  cases token with
  | solid _ _ solid =>
      intro byte member
      have spaced := (solid.plain byte member).1
      rw [white_iff] at spaced
      exact ⟨fun same => spaced (.inr (.inr (.inr same))),
        fun same => spaced (.inr (.inr (.inl same)))⟩
  | string found =>
      have inside := stringBody_oneLine (by decide +kernel) found
      intro byte member
      simp only [List.mem_cons, List.mem_append, List.not_mem_nil,
        or_false] at member
      rcases member with rfl | member | rfl
      · decide
      · exact inside byte member
      · decide

theorem Munched.selected {bytes : List UInt8}
    {items : List (TokenKind × List UInt8)} (munched : Munched bytes items)
    {item : TokenKind × List UInt8} (member : item ∈ items)
    (other : item.1 ≠ .eof) :
    Bounded item.2 ∧ TokenText item.1 item.2 := by
  induction munched with
  | last =>
      rw [List.mem_singleton] at member
      exact absurd (by rw [member]) other
  | next _ selects _ induction =>
      rcases List.mem_cons.mp member with rfl | later
      · exact (selects_kind selects).2
      · exact induction later

theorem Placed.tokenAt {source : List UInt8} {offset : Nat}
    {tokens : List Token} (placed : Placed source offset tokens)
    {token : Token} (member : token ∈ tokens) (other : token.kind ≠ .eof) :
    ∃ start stop, start < stop ∧ stop ≤ source.length ∧
      TokenAt source token start stop := by
  induction placed with
  | last eof =>
      rw [List.mem_singleton] at member
      exact absurd (member ▸ eof) other
  | next _ _ filled inside _ places _ induction =>
      rcases List.mem_cons.mp member with rfl | later
      · exact ⟨_, _, filled, inside, places⟩
      · exact induction later

theorem encodes_around {front text back : List UInt8}
    (encodes : Encodes (front ++ text ++ back)) (bounded : Bounded text) :
    Encodes front ∧ Encodes back := by
  obtain ⟨first, rest, starts, ascii⟩ := bounded.first
  obtain ⟨init, last, ends, ascii'⟩ := bounded.last
  constructor
  · have cut : front ++ text ++ back = front ++ first :: (rest ++ back) := by
      simp [starts]
    rw [cut] at encodes
    exact (encodes_cut encodes ascii).1
  · have cut : front ++ text ++ back = (front ++ init) ++ last :: back := by
      simp [ends]
    rw [cut] at encodes
    exact (encodes_cut encodes ascii').2.2

theorem textBytes_eq (text : String) : textBytes text = encode text.toList := by
  have same := textBytes_ofList text.toList
  rwa [String.ofList_toList] at same

/-- A token is a part of a line of the source. -/
structure InLine (source : String) (token : Token)
    (above line back : List Char) : Prop where
  source : source.toList = above ++ (line ++ token.lexeme.toList ++ back)
  lines : Lines above
  filled : token.lexeme.toList ≠ []
  single : '\n' ∉ line ++ token.lexeme.toList
  kept : '\r' ∉ token.lexeme.toList
  number : token.line = above.count '\n' + 1
  column : token.column = (encode line).length + 1
  finish : token.span.finish =
    ⟨token.line, (encode (line ++ token.lexeme.toList)).length + 1⟩

theorem token_inLine {source : String} {tokens : List Token}
    (lexed : tokenize source = .ok tokens) {token : Token}
    (member : token ∈ tokens) (other : token.kind ≠ .eof) :
    ∃ above line back, InLine source token above line back := by
  obtain ⟨start, stop, filled, inside, places⟩ :=
    (tokenize_placed source tokens lexed).tokenAt member other
  obtain ⟨bounded, text⟩ := (tokenize_munched lexed).1.selected
    (List.mem_map_of_mem member) other
  have plain := text.plain
  simp only [Token.item] at bounded plain
  have upto : (textBytes source).take start ++ textBytes token.lexeme =
      (textBytes source).take stop := by
    have shorter : (textBytes source).take start =
        ((textBytes source).take stop).take start := by
      rw [List.take_take, Nat.min_eq_left filled.le]
    rw [places.lexeme, shorter, List.take_append_drop]
  have cut : (textBytes source).take start ++ textBytes token.lexeme ++
      (textBytes source).drop stop = textBytes source := by
    rw [upto, List.take_append_drop]
  obtain ⟨⟨before, front⟩, ⟨back, rest⟩⟩ :=
    encodes_around (cut ▸ encodes_textBytes source) bounded
  have whole : source.toList = before ++ token.lexeme.toList ++ back := by
    apply encode_injective
    rw [← textBytes_eq, ← cut, front, rest, textBytes_eq]
    simp [encode]
  have newline : '\n' ∉ token.lexeme.toList := by
    intro inside
    have byte := newline_mem_encode.mpr inside
    rw [← textBytes_eq] at byte
    exact (plain 10 byte).1 rfl
  obtain ⟨above, line, rfl, lines, single⟩ := exists_line before
  have single' : '\n' ∉ line ++ token.lexeme.toList := by
    simp [single, newline]
  have begins : token.span.start = ⟨above.count '\n' + 1,
      (encode line).length + 1⟩ := by
    have shown : (textBytes source).take start = encode (above ++ line) :=
      front
    rw [places.starts, shown, placeAfter_encode lines single]
  have ends : token.span.finish = ⟨above.count '\n' + 1,
      (encode (line ++ token.lexeme.toList)).length + 1⟩ := by
    have shown : (textBytes source).take stop =
        encode (above ++ (line ++ token.lexeme.toList)) := by
      rw [← upto, front, textBytes_eq, ← List.append_assoc]
      exact (encode_append _ _).symm
    rw [places.ends, shown, placeAfter_encode lines single']
  have line' : token.line = above.count '\n' + 1 :=
    congrArg Position.line begins
  refine ⟨above, line, back, ?_, lines, ?_, single', ?_, line',
    congrArg Position.column begins, ?_⟩
  · rw [whole]
    simp
  · intro empty
    obtain ⟨byte, rest, same, _⟩ := bounded.first
    rw [textBytes_eq, empty] at same
    cases same
  · intro inside
    have byte : 13 ∈ encode token.lexeme.toList :=
      List.mem_flatMap.mpr ⟨'\r', inside, by decide⟩
    rw [← textBytes_eq] at byte
    exact (plain 13 byte).2 rfl
  · rw [ends, line']

end Tokens

section Rendering

/-- What is shown of the line of a token. -/
theorem InLine.shown {source : String} {token : Token}
    {above line back : List Char}
    (inLine : InLine source token above line back) :
    ∃ rest, sourceLine source token.line =
      line ++ token.lexeme.toList ++ rest := by
  obtain ⟨rest, head⟩ := head?_splitOn inLine.single back
  refine ⟨rest.rdropWhile (· = '\r'), ?_⟩
  have found := getElem?_splitOn inLine.lines
    (line ++ token.lexeme.toList ++ back)
  rw [head] at found
  rw [sourceLine, inLine.source, inLine.number, Nat.add_sub_cancel, found,
    Option.getD_some]
  have lexeme := List.dropLast_append_getLast inLine.filled
  have last : token.lexeme.toList.getLast inLine.filled ≠ '\r' := by
    intro same
    exact inLine.kept (same ▸ List.getLast_mem inLine.filled)
  rw [← lexeme, ← List.append_assoc, rdropWhile_append last]

/-- The marker begins after the text before the token and is as wide as its
lexeme. -/
theorem InLine.widths {source : String} {token : Token}
    {above line back : List Char}
    (inLine : InLine source token above line back) :
    displayWidth (sourceLine source token.line) (token.column - 1) =
        (expandTabs line).length ∧
      markerWidth (sourceLine source token.line) token.span token.line
        (token.column - 1) = (expandTabs token.lexeme.toList).length := by
  obtain ⟨rest, shown⟩ := inLine.shown
  have before : displayWidth (sourceLine source token.line)
      (token.column - 1) = (expandTabs line).length := by
    rw [shown, inLine.column, Nat.add_sub_cancel, List.append_assoc,
      displayWidth_append]
  have ends : displayWidth (sourceLine source token.line)
      (endByte (sourceLine source token.line) token.span token.line
        (token.column - 1)) =
        (expandTabs line).length +
          (expandTabs token.lexeme.toList).length := by
    rw [endByte, inLine.finish, if_neg (Nat.lt_irrefl _), if_pos rfl, shown,
      Nat.add_sub_cancel, displayWidth_append, expandTabs_append,
      List.length_append]
  refine ⟨before, ?_⟩
  have wide : 1 ≤ (expandTabs token.lexeme.toList).length :=
    (List.length_pos_of_ne_nil inLine.filled).trans_le
      (expandTabs_length_le _).1
  rw [markerWidth, before, ends, Nat.add_sub_cancel_left,
    Nat.max_eq_left wide]

theorem length_label (line : Nat) :
    (label line).length = (gutter line).length := by
  simp only [label, gutter, blanks, List.length_append, List.length_cons,
    List.length_replicate, String.length_toList, List.length_nil]

theorem length_marker {width : Nat} (wide : 1 ≤ width) :
    (marker width).length = width := by
  simp only [marker, List.length_cons, List.length_replicate]
  omega

/-- Two rows of a text, one below the other. -/
structure Rows (text top bottom : List Char) : Prop where
  text : ∃ head tail,
    text = head ++ '\n' :: top ++ '\n' :: bottom ++ '\n' :: tail
  top : '\n' ∉ top
  bottom : '\n' ∉ bottom

theorem newline_not_mem_splitOn {text part : List Char}
    (member : part ∈ text.splitOn '\n') : '\n' ∉ part := by
  induction text generalizing part with
  | nil =>
      rw [List.mem_singleton.mp member]
      exact List.not_mem_nil
  | cons c rest induction =>
      rw [List.splitOn_cons_eq_if_modifyHead] at member
      split at member
      · rcases List.mem_cons.mp member with rfl | later
        · exact List.not_mem_nil
        · exact induction later
      · next other =>
          obtain ⟨first, others, same⟩ :=
            List.exists_cons_of_ne_nil (List.splitOn_ne_nil '\n' rest)
          rw [same] at member induction
          rw [List.modifyHead_cons] at member
          rcases List.mem_cons.mp member with rfl | later
          · have here := induction (List.mem_cons_self (a := first))
            have different : c ≠ '\n' := by simpa using other
            simp [here, Ne.symm different]
          · exact induction (List.mem_cons_of_mem _ later)

theorem newline_not_mem_sourceLine (source : String) (line : Nat) :
    '\n' ∉ sourceLine source line := by
  intro member
  have inside := (List.rdropWhile_prefix _ _).subset member
  cases found : (source.toList.splitOn '\n')[line - 1]? with
  | none =>
      rw [found] at inside
      cases inside
  | some part =>
      rw [found] at inside
      exact newline_not_mem_splitOn (List.mem_of_getElem? found) inside

theorem newline_not_mem_expandTabs {line : List Char}
    (single : '\n' ∉ line) : '\n' ∉ expandTabs line := by
  intro member
  obtain ⟨c, inside, shown⟩ := List.mem_flatMap.mp member
  split at shown
  · exact absurd (List.eq_of_mem_replicate shown) (by decide)
  · rw [List.mem_singleton] at shown
    exact single (shown ▸ inside)

theorem newline_not_mem_label (line : Nat) : '\n' ∉ label line := by
  intro member
  rw [label, List.mem_append] at member
  rcases member with number | rest
  · rw [Nat.toString_eq_repr, Nat.toList_repr] at number
    have digit := Nat.isDigit_of_mem_toDigits (by decide) (by decide) number
    exact absurd digit (by decide)
  · exact absurd rest (by decide)

theorem newline_not_mem_marker (line margin width : Nat) :
    '\n' ∉ gutter line ++ blanks margin ++ marker width := by
  simp [gutter, blanks, marker, List.mem_replicate]

/-- A rendering has a row for the source line and one for the marker. -/
theorem renderSpan_rows (filename source message : String) (span : Span) :
    Rows (renderSpan filename source span message).toList
      (label (max span.start.line 1) ++
        expandTabs (sourceLine source (max span.start.line 1)))
      (gutter (max span.start.line 1) ++
        blanks (displayWidth (sourceLine source (max span.start.line 1))
          (max span.start.column 1 - 1)) ++
        marker (markerWidth (sourceLine source (max span.start.line 1)) span
          (max span.start.line 1) (max span.start.column 1 - 1))) where
  text := ⟨_, _, by rw [renderSpan, String.toList_ofList]⟩
  top := by
    rw [List.mem_append, not_or]
    exact ⟨newline_not_mem_label _, newline_not_mem_expandTabs
      (newline_not_mem_sourceLine _ _)⟩
  bottom := newline_not_mem_marker _ _ _

/-- Diagnostics underline tokens: below the source line, in the columns of
the lexeme of the token with its tabs expanded, stand as many markers.  For
any other range the markers begin and end within the line that is shown and
one more column, and no width exceeds four times the bytes of the line. -/
theorem renderSpan_underlines (filename source message : String) :
    (∀ tokens, tokenize source = .ok tokens →
      ∀ token ∈ tokens, token.kind ≠ .eof →
        ∃ above line back rest, InLine source token above line back ∧
          sourceLine source token.line =
            line ++ token.lexeme.toList ++ rest ∧
          Rows (renderSpan filename source token.span message).toList
            (label token.line ++ expandTabs line ++
              expandTabs token.lexeme.toList ++ expandTabs rest)
            (gutter token.line ++ blanks (expandTabs line).length ++
              marker (expandTabs token.lexeme.toList).length) ∧
          (label token.line).length = (gutter token.line).length ∧
          (marker (expandTabs token.lexeme.toList).length).length =
            (expandTabs token.lexeme.toList).length) ∧
    (∀ span, ∃ line margin width,
      Rows (renderSpan filename source span message).toList
        (label line ++ expandTabs (sourceLine source line))
        (gutter line ++ blanks margin ++ marker width) ∧
      (label line).length = (gutter line).length ∧
      (marker width).length = width ∧
      margin ≤ (expandTabs (sourceLine source line)).length ∧
      margin + width ≤ (expandTabs (sourceLine source line)).length + 1 ∧
      (expandTabs (sourceLine source line)).length ≤
        4 * (encode (sourceLine source line)).length) := by
  refine ⟨?_, ?_⟩
  · intro tokens lexed token member other
    obtain ⟨above, line, back, inLine⟩ := token_inLine lexed member other
    obtain ⟨rest, shown⟩ := inLine.shown
    obtain ⟨margin, width⟩ := inLine.widths
    have rows := renderSpan_rows filename source message token.span
    have number : max token.span.start.line 1 = token.line := by
      have positive := inLine.number
      change max token.line 1 = token.line
      omega
    have column : max token.span.start.column 1 = token.column := by
      have positive := inLine.column
      change max token.column 1 = token.column
      omega
    rw [number, column, margin, width, shown, expandTabs_append,
      expandTabs_append, ← List.append_assoc, ← List.append_assoc] at rows
    refine ⟨above, line, back, rest, inLine, shown, rows, length_label _,
      length_marker ?_⟩
    exact (List.length_pos_of_ne_nil inLine.filled).trans_le
      (expandTabs_length_le _).1
  · intro span
    refine ⟨_, _, _, renderSpan_rows filename source message span,
      length_label _, length_marker (Nat.le_max_right _ _),
      displayWidth_le _ _, ?_, (expandTabs_length_le _).2⟩
    have ends := displayWidth_le (sourceLine source (max span.start.line 1))
      (endByte (sourceLine source (max span.start.line 1)) span
        (max span.start.line 1) (max span.start.column 1 - 1))
    have starts := displayWidth_le
      (sourceLine source (max span.start.line 1))
      (max span.start.column 1 - 1)
    rw [markerWidth]
    omega

/-- A name behind a tab. -/
theorem renderSpan_underlines_tab :
    tokenize "\tx;" = .ok [⟨.identifier, "x", 1, 2⟩, ⟨.semicolon, ";", 1, 3⟩,
        ⟨.eof, "", 1, 4⟩] ∧
      ∃ line rest, Rows (renderSpan "main.net" "\tx;"
          (Token.span ⟨.identifier, "x", 1, 2⟩) "unknown").toList
        (label 1 ++ expandTabs line ++ expandTabs ['x'] ++ expandTabs rest)
        (gutter 1 ++ blanks (expandTabs line).length ++ marker 1) := by
  have lexed : tokenize "\tx;" = .ok [⟨.identifier, "x", 1, 2⟩,
      ⟨.semicolon, ";", 1, 3⟩, ⟨.eof, "", 1, 4⟩] := by decide +kernel
  obtain ⟨_, line, _, rest, _, _, rows, _⟩ :=
    (renderSpan_underlines "main.net" "\tx;" "unknown").1 _ lexed
      ⟨.identifier, "x", 1, 2⟩ (by simp) (by simp)
  exact ⟨lexed, line, rest, rows⟩

end Rendering

end NetLang
