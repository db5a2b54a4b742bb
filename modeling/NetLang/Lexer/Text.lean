import Mathlib.Data.List.TakeWhile
import NetLang.Lexer.Scanner

/-!
# Bytes and places of a source text

Parts of a UTF-8 text that begin and end with ASCII bytes are texts
themselves, and the counters of the scanner and of the compiler are the lines
and byte columns of the source.
-/

namespace NetLang

/-- The bytes are the encoding of some text. -/
def Encodes (bytes : List UInt8) : Prop :=
  ∃ characters : List Char, bytes = characters.flatMap String.utf8EncodeChar

theorem encodes_textBytes (text : String) : Encodes (textBytes text) := by
  obtain ⟨characters, same⟩ := text.isValidUTF8
  refine ⟨characters, ?_⟩
  rw [textBytes, String.toUTF8, same, List.utf8Encode]
  simp

/-- An ASCII byte in the encoding of a character is all of it. -/
theorem utf8EncodeChar_ascii {character : Char} {byte : UInt8}
    (member : byte ∈ String.utf8EncodeChar character) (ascii : byte < 128) :
    String.utf8EncodeChar character = [byte] := by
  have small : byte.toNat < 128 := UInt8.lt_iff_toNat_lt.mp ascii
  unfold String.utf8EncodeChar at member ⊢
  dsimp only at member ⊢
  split at member
  case isTrue single =>
    rw [if_pos single]
    rw [List.mem_singleton] at member
    rw [member]
  case isFalse =>
    exfalso
    split at member
    · simp only [List.mem_cons, List.not_mem_nil, or_false] at member
      obtain rfl | rfl := member <;>
        simp only [UInt8.toNat_ofNat'] at small <;> omega
    · split at member
      · simp only [List.mem_cons, List.not_mem_nil, or_false] at member
        obtain rfl | rfl | rfl := member <;>
          simp only [UInt8.toNat_ofNat'] at small <;> omega
      · simp only [List.mem_cons, List.not_mem_nil, or_false] at member
        obtain rfl | rfl | rfl | rfl := member <;>
          simp only [UInt8.toNat_ofNat'] at small <;> omega

/-- A text may be cut before and after an ASCII byte. -/
theorem encodes_cut {front back : List UInt8} {byte : UInt8}
    (encodes : Encodes (front ++ byte :: back)) (ascii : byte < 128) :
    Encodes front ∧ Encodes [byte] ∧ Encodes back := by
  obtain ⟨characters, same⟩ := encodes
  induction characters generalizing front with
  | nil => simp at same
  | cons character characters induction =>
      rw [List.flatMap_cons] at same
      obtain ⟨later, rest, split⟩ | ⟨inner, whole, split⟩ :=
        List.append_eq_append_iff.mp same
      · cases later with
        | nil =>
            rw [List.nil_append] at split
            have front' : String.utf8EncodeChar character = front := by
              simpa using rest
            have ends : Encodes [] ∧ Encodes [byte] ∧ Encodes back :=
              induction split
            obtain ⟨_, alone, last⟩ := ends
            exact ⟨⟨[character], by simpa using front'.symm⟩, alone, last⟩
        | cons first later =>
            rw [List.cons_append] at split
            injection split with heads tails
            subst heads
            have alone : String.utf8EncodeChar character = [byte] := by
              apply utf8EncodeChar_ascii _ ascii
              rw [rest]
              simp
            have none : front = [] ∧ later = [] := by
              have lengths := congrArg List.length (alone.symm.trans rest)
              simp only [List.length_append, List.length_cons,
                List.length_nil] at lengths
              constructor
              · apply List.eq_nil_of_length_eq_zero
                omega
              · apply List.eq_nil_of_length_eq_zero
                omega
            obtain ⟨rfl, rfl⟩ := none
            refine ⟨⟨[], rfl⟩, ⟨[character], by simpa using alone.symm⟩, ?_⟩
            exact ⟨characters, by simpa using tails⟩
      · obtain ⟨before, alone, last⟩ := induction split.symm
        obtain ⟨first, rfl⟩ := before
        refine ⟨⟨character :: first, ?_⟩, alone, last⟩
        rw [List.flatMap_cons, whole]

/-- The text begins and ends with an ASCII byte. -/
structure Bounded (text : List UInt8) : Prop where
  first : ∃ byte back, text = byte :: back ∧ byte < 128
  last : ∃ front byte, text = front ++ [byte] ∧ byte < 128

theorem Bounded.single {byte : UInt8} (ascii : byte < 128) :
    Bounded [byte] :=
  ⟨⟨byte, [], rfl, ascii⟩, ⟨[], byte, rfl, ascii⟩⟩

theorem bounded_of_forall {text : List UInt8} (filled : text ≠ [])
    (ascii : ∀ byte ∈ text, byte < 128) : Bounded text := by
  constructor
  · obtain ⟨byte, back, rfl⟩ := List.exists_cons_of_ne_nil filled
    exact ⟨byte, back, rfl, ascii byte (by simp)⟩
  · exact ⟨text.dropLast, text.getLast filled,
      (List.dropLast_append_getLast filled).symm,
      ascii _ (List.getLast_mem filled)⟩

theorem encodes_slice {front text back : List UInt8}
    (encodes : Encodes (front ++ text ++ back)) (bounded : Bounded text) :
    Encodes text := by
  obtain ⟨first, rest, same, ascii⟩ := bounded.first
  obtain ⟨init, last, same', ascii'⟩ := bounded.last
  have whole : Encodes (text ++ back) := by
    have cut : front ++ text ++ back = front ++ first :: (rest ++ back) := by
      simp [same]
    rw [cut] at encodes
    obtain ⟨_, ⟨head, alone⟩, ⟨tail, after⟩⟩ := encodes_cut encodes ascii
    refine ⟨head ++ tail, ?_⟩
    rw [List.flatMap_append, ← alone, ← after, same]
    simp
  have cut : text ++ back = init ++ last :: back := by simp [same']
  rw [cut] at whole
  obtain ⟨⟨head, before⟩, ⟨tail, alone⟩, _⟩ := encodes_cut whole ascii'
  refine ⟨head ++ tail, ?_⟩
  rw [List.flatMap_append, ← alone, ← before, same']

/-- The lossy conversion keeps a text as it is. -/
theorem textBytes_fromUtf8Lossy {bytes : List UInt8}
    (encodes : Encodes bytes) :
    textBytes (Utf8.fromUtf8Lossy bytes) = bytes := by
  obtain ⟨characters, rfl⟩ := encodes
  have valid : ByteArray.IsValidUTF8
      (characters.flatMap String.utf8EncodeChar).toByteArray :=
    ⟨characters, rfl⟩
  unfold Utf8.fromUtf8Lossy String.fromUTF8?
  rw [dif_pos valid]
  simp [textBytes, String.toUTF8, String.fromUTF8]

/-- The one-based line and byte column after a text. -/
def placeAfter (bytes : List UInt8) : Position :=
  ⟨bytes.count 10 + 1, (bytes.reverse.takeWhile (· ≠ 10)).length + 1⟩

/-- How the scanner counts one byte. -/
def Position.count (position : Position) (byte : UInt8) : Position :=
  if byte = 10 then ⟨NetPosition.succ position.line, 1⟩
  else ⟨position.line, NetPosition.succ position.column⟩

theorem placeAfter_concat (bytes : List UInt8) (byte : UInt8) :
    placeAfter (bytes ++ [byte]) =
      if byte = 10 then ⟨(placeAfter bytes).line + 1, 1⟩
      else ⟨(placeAfter bytes).line, (placeAfter bytes).column + 1⟩ := by
  by_cases newline : byte = 10
  · simp [placeAfter, newline]
  · simp [placeAfter, newline]

theorem placeAfter_bounds (bytes : List UInt8) :
    (placeAfter bytes).line ≤ bytes.length + 1 ∧
      (placeAfter bytes).column ≤ bytes.length + 1 := by
  have lines : bytes.count 10 ≤ bytes.length := List.count_le_length
  have columns : (bytes.reverse.takeWhile (· ≠ 10)).length ≤
      bytes.reverse.length :=
    (List.takeWhile_prefix _).length_le
  rw [List.length_reverse] at columns
  exact ⟨Nat.succ_le_succ lines, Nat.succ_le_succ columns⟩

theorem placeAfter_step (bytes : List UInt8) (byte : UInt8)
    (short : bytes.length + 2 < 2 ^ 64) :
    (placeAfter bytes).count byte = placeAfter (bytes ++ [byte]) ∧
      (placeAfter bytes).advance byte = placeAfter (bytes ++ [byte]) := by
  obtain ⟨lines, columns⟩ := placeAfter_bounds bytes
  have line : ((placeAfter bytes).line + 1) % 2 ^ 64 =
      (placeAfter bytes).line + 1 :=
    Nat.mod_eq_of_lt (by omega)
  have column : ((placeAfter bytes).column + 1) % 2 ^ 64 =
      (placeAfter bytes).column + 1 :=
    Nat.mod_eq_of_lt (by omega)
  have line' : min ((placeAfter bytes).line + 1) (2 ^ 64 - 1) =
      (placeAfter bytes).line + 1 :=
    Nat.min_eq_left (by omega)
  have column' : min ((placeAfter bytes).column + 1) (2 ^ 64 - 1) =
      (placeAfter bytes).column + 1 :=
    Nat.min_eq_left (by omega)
  rw [placeAfter_concat]
  constructor
  · rw [Position.count, NetPosition.succ, NetPosition.succ, line, column]
  · rw [Position.advance, saturatingSucc, saturatingSucc, line', column']

/-- The scanner and the compiler count lines and columns alike. -/
theorem placeAfter_append (bytes text : List UInt8)
    (short : (bytes ++ text).length + 1 < 2 ^ 64) :
    text.foldl Position.count (placeAfter bytes) =
        placeAfter (bytes ++ text) ∧
      text.foldl Position.advance (placeAfter bytes) =
        placeAfter (bytes ++ text) := by
  induction text generalizing bytes with
  | nil => simp
  | cons byte text induction =>
      have first := placeAfter_step bytes byte (by
        simp only [List.length_append, List.length_cons] at short
        omega)
      have rest := induction (bytes ++ [byte]) (by simpa using short)
      rw [List.append_assoc, List.singleton_append] at rest
      rw [List.foldl_cons, List.foldl_cons, first.1, first.2]
      exact rest

end NetLang
