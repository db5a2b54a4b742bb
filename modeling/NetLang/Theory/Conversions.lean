import NetLang.Interpreter.Expression
import NetLang.Lexer.Spacing

/-!
# Conversions between texts, bytes and integers

Decoding undoes encoding and accepts nothing else; what it refuses, it refuses
at the end of the longest text in front.  Both agree with concatenation, and
bytes made of integers are read as these integers.
-/

namespace NetLang

section Bytes

theorem toList_loop (bytes : ByteArray) :
    ∀ (missing position : Nat) (read : List UInt8),
      bytes.size - position = missing →
      ByteArray.toList.loop bytes position read =
        read.reverse ++ bytes.data.toList.drop position := by
  intro missing
  induction missing with
  | zero =>
      intro position read ended
      have past : bytes.data.toList.length ≤ position := by
        rw [Array.length_toList]
        exact Nat.le_of_sub_eq_zero ended
      rw [ByteArray.toList.loop, if_neg (by omega), List.drop_of_length_le past,
        List.append_nil]
  | succ missing induction =>
      intro position read left
      have inside : position < bytes.size := by omega
      have there : position < bytes.data.toList.length := by
        rwa [Array.length_toList]
      rw [ByteArray.toList.loop, if_pos inside, induction _ _ (by omega),
        List.drop_eq_getElem_cons there, List.reverse_cons, List.append_assoc,
        List.singleton_append]
      congr 2
      simp [ByteArray.get!, inside]

theorem toUTF8_toList (text : String) : text.toUTF8.toList = textBytes text :=
  toList_loop text.toUTF8 _ 0 [] rfl

theorem fromUTF8_eq_some {bytes : List UInt8} {text : String} :
    String.fromUTF8? ⟨bytes.toArray⟩ = some text ↔ textBytes text = bytes := by
  constructor
  · intro decoded
    unfold String.fromUTF8? at decoded
    split at decoded
    · cases decoded
      rfl
    · cases decoded
  · rintro rfl
    have same : (⟨(textBytes text).toArray⟩ : ByteArray) = text.toUTF8 := rfl
    have valid : text.toUTF8.IsValidUTF8 := text.isValidUTF8
    rw [same, String.fromUTF8?, dif_pos valid]
    rfl

end Bytes

section Prefixes

theorem toByteArray_append (front back : List UInt8) :
    (front ++ back).toByteArray = front.toByteArray ++ back.toByteArray := by
  simp

/-- A character is read where its encoding stands. -/
theorem decodeChar_iff {bytes : List UInt8} {c : Char} :
    bytes.toByteArray.utf8DecodeChar? 0 = some c ↔
      ∃ rest, bytes = String.utf8EncodeChar c ++ rest := by
  constructor
  · intro decoded
    obtain ⟨rest, same⟩ := ByteArray.exists_of_utf8DecodeChar?_eq_some decoded
    refine ⟨rest.data.toList, ?_⟩
    have lists := congrArg (fun whole => whole.data.toList) same
    simpa using lists
  · rintro ⟨rest, rfl⟩
    rw [toByteArray_append]
    exact ByteArray.utf8DecodeChar?_utf8EncodeChar_append

theorem scanUtf8_le (fuel : Nat) (bytes : List UInt8) :
    scanUtf8 fuel bytes ≤ bytes.length := by
  fun_induction scanUtf8 fuel bytes with
  | case1 => exact Nat.zero_le _
  | case2 fuel bytes c decoded induction =>
      obtain ⟨rest, rfl⟩ := decodeChar_iff.mp decoded
      have size := String.length_utf8EncodeChar c
      simp only [List.length_append, List.length_drop] at induction ⊢
      omega
  | case3 => exact Nat.zero_le _

/-- What has been read is a text. -/
theorem scanUtf8_valid (fuel : Nat) (bytes : List UInt8) :
    ∃ characters : List Char, bytes.take (scanUtf8 fuel bytes) =
      characters.flatMap String.utf8EncodeChar := by
  fun_induction scanUtf8 fuel bytes with
  | case1 => exact ⟨[], rfl⟩
  | case2 fuel bytes c decoded induction =>
      obtain ⟨rest, rfl⟩ := decodeChar_iff.mp decoded
      obtain ⟨characters, valid⟩ := induction
      have size := String.length_utf8EncodeChar c
      rw [← size, List.drop_left] at valid ⊢
      refine ⟨c :: characters, ?_⟩
      rw [List.take_length_add_append, valid, List.flatMap_cons]
  | case3 => exact ⟨[], rfl⟩

/-- No text in front is longer than what is read. -/
theorem scanUtf8_longest {fuel : Nat} {characters : List Char}
    {rest : List UInt8}
    (enough : (characters.flatMap String.utf8EncodeChar).length ≤ fuel) :
    (characters.flatMap String.utf8EncodeChar).length ≤
      scanUtf8 fuel (characters.flatMap String.utf8EncodeChar ++ rest) := by
  induction characters generalizing fuel with
  | nil => exact Nat.zero_le _
  | cons c characters induction =>
      have size := String.length_utf8EncodeChar c
      have filled := c.utf8Size_pos
      rw [List.flatMap_cons, List.length_append] at enough ⊢
      cases fuel with
      | zero => omega
      | succ fuel =>
          rw [List.append_assoc]
          have decoded := (@decodeChar_iff _ c).mpr
            ⟨characters.flatMap String.utf8EncodeChar ++ rest, rfl⟩
          rw [scanUtf8, decoded]
          dsimp only
          rw [← size, List.drop_left]
          have later := @induction fuel (by omega)
          omega

end Prefixes

section Builtins

/-- The bytes are the encoding of the text. -/
def Encoded (text : String) (bytes : List UInt8) : Prop :=
  pureBuiltin .encodeUtf8 (.string text) = .ok (.bytes bytes)

theorem encoded_iff {text : String} {bytes : List UInt8} :
    Encoded text bytes ↔ textBytes text = bytes := by
  have encode : pureBuiltin .encodeUtf8 (.string text) =
      .ok (.bytes text.toUTF8.toList) := rfl
  rw [Encoded, encode, toUTF8_toList]
  simp

theorem decodeUtf8_iff {text : String} {bytes : List UInt8} :
    pureBuiltin .decodeUtf8 (.bytes bytes) = .ok (.string text) ↔
      Encoded text bytes := by
  have decode : pureBuiltin .decodeUtf8 (.bytes bytes) = decodeUtf8 bytes :=
    rfl
  rw [encoded_iff, ← fromUTF8_eq_some, decode, decodeUtf8]
  generalize String.fromUTF8? ⟨bytes.toArray⟩ = decoded
  cases decoded <;> simp

/-- A refusal names the end of the longest text in front. -/
theorem decodeUtf8_refuses {bytes : List UInt8}
    (none : ∀ text, ¬ Encoded text bytes) :
    ∃ position, pureBuiltin .decodeUtf8 (.bytes bytes) =
        .error (.invalidUtf8 position) ∧
      position < bytes.length ∧
      (∃ text, Encoded text (bytes.take position)) ∧
      ∀ longer, position < longer → longer ≤ bytes.length →
        ∀ text, ¬ Encoded text (bytes.take longer) := by
  have refused : String.fromUTF8? ⟨bytes.toArray⟩ = .none := by
    cases decoded : String.fromUTF8? ⟨bytes.toArray⟩ with
    | none => rfl
    | some text =>
        exact absurd (encoded_iff.mpr (fromUTF8_eq_some.mp decoded))
          (none text)
  have decode : pureBuiltin .decodeUtf8 (.bytes bytes) = decodeUtf8 bytes :=
    rfl
  have valid : ∃ text, Encoded text (bytes.take (validUpTo bytes)) := by
    obtain ⟨characters, same⟩ := scanUtf8_valid bytes.length bytes
    refine ⟨String.ofList characters, encoded_iff.mpr ?_⟩
    rw [textBytes_ofList, validUpTo, same]
  refine ⟨validUpTo bytes, by rw [decode, decodeUtf8, refused], ?_, valid, ?_⟩
  · apply lt_of_le_of_ne (scanUtf8_le _ _)
    intro whole
    obtain ⟨text, encoded⟩ := valid
    rw [validUpTo, whole, List.take_length] at encoded
    exact none text encoded
  · intro longer above below text encoded
    have front : text.toList.flatMap String.utf8EncodeChar =
        bytes.take longer := by
      rw [← textBytes_ofList, String.ofList_toList, encoded_iff.mp encoded]
    have length : (bytes.take longer).length = longer :=
      List.length_take_of_le below
    have read := @scanUtf8_longest bytes.length text.toList
      (bytes.drop longer) (by rw [front, length]; exact below)
    rw [front, length, List.take_append_drop] at read
    exact absurd above (Nat.not_lt.mpr read)

/-- The integer a byte is read as. -/
def byteValue (byte : UInt8) : Value :=
  .integer (Int64.ofInt byte.toNat)

theorem byteValue_toInt (byte : UInt8) :
    (Int64.ofInt byte.toNat).toInt = byte.toNat := by
  have small := byte.toNat_lt
  exact Int64.toInt_ofInt_of_le (by omega) (by omega)

theorem toByte_ok {value : Value} {byte : UInt8} :
    toByte value = .ok byte ↔ value = byteValue byte := by
  constructor
  · intro converted
    unfold toByte at converted
    split at converted
    · next number =>
        split at converted
        · next fits =>
            cases converted
            have small : number.toInt.toNat < 2 ^ 8 := by omega
            have same : ((UInt8.ofNat number.toInt.toNat).toNat : Int) =
                number.toInt := by
              rw [UInt8.toNat_ofNat', Nat.mod_eq_of_lt small]
              exact Int.toNat_of_nonneg fits.1
            unfold byteValue
            rw [same, Int64.ofInt_toInt]
        · cases converted
    · cases converted
  · rintro rfl
    have small := byte.toNat_lt
    have read : toByte (byteValue byte) =
        if 0 ≤ (Int64.ofInt byte.toNat).toInt ∧
            (Int64.ofInt byte.toNat).toInt < 256 then
          .ok (UInt8.ofNat (Int64.ofInt byte.toNat).toInt.toNat)
        else .error .byteRange := rfl
    rw [read, byteValue_toInt, if_pos (by omega)]
    simp

theorem toBytes_ok {values : List Value} {bytes : List UInt8} :
    toBytes values = .ok bytes ↔ values = bytes.map byteValue := by
  induction values generalizing bytes with
  | nil =>
      unfold toBytes
      rw [Except.ok.injEq, eq_comm (a := []), eq_comm (a := []),
        List.map_eq_nil_iff]
  | cons value rest induction =>
      unfold toBytes
      cases bytes with
      | nil =>
          cases toByte value with
          | error kind => simp [bind, Except.bind]
          | ok byte =>
              cases toBytes rest <;> simp [bind, Except.bind]
      | cons byte bytes =>
          rw [List.map_cons, List.cons.injEq, ← toByte_ok, ← induction]
          cases toByte value with
          | error kind => simp [bind, Except.bind]
          | ok byte =>
              cases toBytes rest <;> simp [bind, Except.bind]

theorem bytes_ok {values : List Value} {bytes : List UInt8} :
    pureBuiltin .bytes (.array values) = .ok (.bytes bytes) ↔
      values = bytes.map byteValue := by
  have convert : pureBuiltin .bytes (.array values) =
      (toBytes values).bind fun bytes => .ok (.bytes bytes) := rfl
  rw [convert, ← toBytes_ok]
  cases toBytes values <;> simp [Except.bind]

/-- An array has a value at every position from zero to its length. -/
theorem get_position {values : List Value} {selector : Selector}
    {position : Int64} (indexed : selector.position? = some position) :
    ((Value.array values).get selector).toOption =
      if position.toInt < 0 then none
      else values[position.toInt.toNat]? := by
  by_cases negative : position.toInt < 0
  · simp [Value.get, indexed, negative, Except.toOption]
  · cases found : values[position.toInt.toNat]? with
    | none =>
        simp only [Value.get, indexed, negative, found, if_false]
        rfl
    | some value =>
        simp only [Value.get, indexed, negative, found, if_false]
        rfl

/-- Bytes are read as the integers they stand for. -/
theorem index_bytes (bytes : List UInt8) (position : Value) :
    (index (.bytes bytes) position).toOption =
      (index (.array (bytes.map byteValue)) position).toOption := by
  cases position with
  | integer number =>
      have array : index (.array (bytes.map byteValue)) (.integer number) =
          (Value.array (bytes.map byteValue)).get
            (.index (.integer number)) := rfl
      have indexed : (Selector.index (.integer number)).position? =
          some number := rfl
      rw [array, get_position indexed, List.getElem?_map]
      unfold index
      dsimp only
      by_cases negative : number.toInt < 0
      · rw [if_pos negative, if_pos negative]
        rfl
      · rw [if_neg negative, if_neg negative]
        cases bytes[number.toInt.toNat]? <;> rfl
  | _ => rfl

variable [Formatting]

/-- The conversions are exact: decoding undoes encoding and accepts nothing
else, a refusal names the end of the longest text in front, concatenation is
kept, and bytes hold the integers they were made of. -/
theorem conversions_exact :
    (∀ text bytes, pureBuiltin .decodeUtf8 (.bytes bytes) =
        .ok (.string text) ↔
      pureBuiltin .encodeUtf8 (.string text) = .ok (.bytes bytes)) ∧
    (∀ bytes, (∀ text, ¬ Encoded text bytes) →
      ∃ position, pureBuiltin .decodeUtf8 (.bytes bytes) =
          .error (.invalidUtf8 position) ∧
        position < bytes.length ∧
        (∃ text, Encoded text (bytes.take position)) ∧
        ∀ longer, position < longer → longer ≤ bytes.length →
          ∀ text, ¬ Encoded text (bytes.take longer)) ∧
    (∀ text text' bytes bytes', Encoded text bytes → Encoded text' bytes' →
      ∃ joined, binary (.string text) .add (.string text') =
          .ok (.string joined) ∧
        ∃ whole, binary (.bytes bytes) .add (.bytes bytes') =
            .ok (.bytes whole) ∧ Encoded joined whole) ∧
    (∀ values bytes, pureBuiltin .bytes (.array values) =
        .ok (.bytes bytes) → ∀ position : Value,
      (index (.bytes bytes) position).toOption =
        (index (.array values) position).toOption) ∧
    ∀ bytes, ∃ values, pureBuiltin .bytes (.array values) =
      .ok (.bytes bytes) := by
  refine ⟨fun _ _ => decodeUtf8_iff, fun _ => decodeUtf8_refuses, ?_, ?_, ?_⟩
  · intro text text' bytes bytes' first second
    refine ⟨text ++ text', rfl, bytes ++ bytes', rfl, ?_⟩
    rw [encoded_iff] at first second ⊢
    rw [textBytes_append, first, second]
  · intro values bytes converted position
    rw [bytes_ok] at converted
    rw [converted]
    exact index_bytes bytes position
  · intro bytes
    exact ⟨bytes.map byteValue, bytes_ok.mpr rfl⟩

omit [Formatting] in
/-- A letter in front of a byte that is in no text. -/
theorem conversions_exact_refusal :
    let _formatting : Formatting := ⟨fun _ => "", fun text => text⟩
    (∀ text, ¬ Encoded text [0x61, 0xFF]) ∧
      ∃ position, pureBuiltin .decodeUtf8 (.bytes [0x61, 0xFF]) =
          .error (.invalidUtf8 position) ∧ position < 2 := by
  intro _formatting
  have none : ∀ text, ¬ Encoded text [0x61, 0xFF] := by
    intro text encoded
    have refused : String.fromUTF8? ⟨#[0x61, 0xFF]⟩ = .none := by
      decide +kernel
    rw [encoded_iff, ← fromUTF8_eq_some, refused] at encoded
    cases encoded
  obtain ⟨position, refused, inside, _⟩ :=
    conversions_exact.2.1 [0x61, 0xFF] none
  exact ⟨none, position, refused, inside⟩

end Builtins

end NetLang
