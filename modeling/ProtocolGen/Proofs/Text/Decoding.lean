import Mathlib.Tactic.SplitIfs
import ProtocolGen.Proofs.Sequencing
import ProtocolGen.Text.Utf8

/-!
# Reading UTF-8

Bytes are read as characters just when they are those characters' encoding, so what is not read is the
encoding of no text.
-/

set_option autoImplicit false

namespace ProtocolGen.Text

/-! ## The bytes of a character -/

theorem isContinuation_iff {byte : UInt8} :
    isContinuation byte ↔ 0x80 ≤ byte.toNat ∧ byte.toNat ≤ 0xBF := by
  simp [isContinuation, UInt8.le_iff_toNat_le]

theorem isSecond_iff {first second : UInt8} :
    isSecond first second ↔ 0x80 ≤ second.toNat ∧ second.toNat ≤ 0xBF ∧
      (first.toNat = 0xE0 → 0xA0 ≤ second.toNat) ∧ (first.toNat = 0xED → second.toNat < 0xA0) ∧
      (first.toNat = 0xF0 → 0x90 ≤ second.toNat) ∧ (first.toNat = 0xF4 → second.toNat < 0x90) := by
  rw [isSecond, Bool.and_eq_true, isContinuation_iff]
  simp only [UInt8.le_iff_toNat_le, UInt8.lt_iff_toNat_lt, beq_iff_eq, ← UInt8.toNat_inj,
    UInt8.reduceToNat]
  split_ifs <;> simp only [decide_eq_true_eq, and_true] <;> omega

theorem toNat_range (char : Char) :
    char.toNat < 0xD800 ∨ 0xDFFF < char.toNat ∧ char.toNat < 0x110000 := char.valid

/-- The bytes of the character with a number. -/
def encodedBytes (number : Nat) : List UInt8 :=
  if number ≤ 0x7F then [UInt8.ofNat number]
  else if number ≤ 0x7FF then [UInt8.ofNat (number / 64 % 32 + 192), UInt8.ofNat (number % 64 + 128)]
  else if number ≤ 0xFFFF then
    [UInt8.ofNat (number / 4096 % 16 + 224), UInt8.ofNat (number / 64 % 64 + 128),
      UInt8.ofNat (number % 64 + 128)]
  else
    [UInt8.ofNat (number / 262144 % 8 + 240), UInt8.ofNat (number / 4096 % 64 + 128),
      UInt8.ofNat (number / 64 % 64 + 128), UInt8.ofNat (number % 64 + 128)]

theorem utf8EncodeChar_eq (char : Char) :
    String.utf8EncodeChar char = encodedBytes char.toNat := rfl

theorem utf8Head_encoded (char : Char) {first : UInt8} {more : List UInt8}
    (encoded : String.utf8EncodeChar char = first :: more) (rest : List UInt8) :
    utf8Head first (more ++ rest) = .char char.toNat (more.length + 1) := by
  have range := toNat_range char
  rw [utf8EncodeChar_eq, encodedBytes] at encoded
  unfold utf8Head
  simp only [UInt8.lt_iff_toNat_lt, UInt8.reduceToNat, Bool.not_eq_true', ← Bool.not_eq_true]
  split_ifs at encoded
  all_goals obtain ⟨rfl, rfl⟩ := List.cons_eq_cons.mp encoded
  all_goals
    simp only [isSecond_iff, isContinuation_iff, payload, UInt8.toNat_ofNat', List.cons_append,
      List.nil_append, List.length_cons, List.length_nil]
  · rw [if_pos (by omega), Nat.mod_eq_of_lt (by omega)]
  · rw [if_neg (by omega), if_neg (by omega), if_pos (by omega), if_pos (by omega)]
    congr 1
    omega
  · rw [if_neg (by omega), if_neg (by omega), if_neg (by omega), if_pos (by omega),
      if_neg (by omega), if_neg (by omega)]
    congr 1
    omega
  · rw [if_neg (by omega), if_neg (by omega), if_neg (by omega), if_neg (by omega),
      if_pos (by omega), if_neg (by omega), if_neg (by omega), if_neg (by omega)]
    congr 1
    omega

variable {first second third fourth : UInt8}

theorem encodedBytes_one (low : first.toNat < 0x80) : encodedBytes first.toNat = [first] := by
  rw [encodedBytes, if_pos (by omega), UInt8.ofNat_toNat]

theorem encodedBytes_two (low : 0xC2 ≤ first.toNat) (high : first.toNat < 0xE0)
    (continues : isSecond first second) :
    encodedBytes (first.toNat % 32 * 64 + payload second) = [first, second] := by
  rw [isSecond_iff] at continues
  rw [encodedBytes, payload, if_neg (by omega), if_pos (by omega)]
  simp only [List.cons.injEq, and_true, ← UInt8.toNat_inj, UInt8.toNat_ofNat']
  omega

theorem encodedBytes_three (low : 0xE0 ≤ first.toNat) (high : first.toNat < 0xF0)
    (continues : isSecond first second) (ends : isContinuation third) :
    encodedBytes ((first.toNat % 16 * 64 + payload second) * 64 + payload third) =
      [first, second, third] := by
  rw [isSecond_iff] at continues
  rw [isContinuation_iff] at ends
  rw [encodedBytes, payload, payload, if_neg (by omega), if_neg (by omega), if_pos (by omega)]
  simp only [List.cons.injEq, and_true, ← UInt8.toNat_inj, UInt8.toNat_ofNat']
  omega

theorem encodedBytes_four (low : 0xF0 ≤ first.toNat) (high : first.toNat < 0xF5)
    (continues : isSecond first second) (goesOn : isContinuation third)
    (ends : isContinuation fourth) :
    encodedBytes (((first.toNat % 8 * 64 + payload second) * 64 + payload third) * 64 +
      payload fourth) = [first, second, third, fourth] := by
  rw [isSecond_iff] at continues
  rw [isContinuation_iff] at goesOn ends
  rw [encodedBytes, payload, payload, payload, if_neg (by omega), if_neg (by omega),
    if_neg (by omega)]
  simp only [List.cons.injEq, and_true, ← UInt8.toNat_inj, UInt8.toNat_ofNat']
  omega

/-- A character at the head of some bytes has its encoding there. -/
theorem exists_encoded_of_utf8Head {rest : List UInt8} {number length : Nat}
    (head : utf8Head first rest = .char number length) :
    ∃ char more after, char.toNat = number ∧ String.utf8EncodeChar char = first :: more ∧
      rest = more ++ after ∧ length = more.length + 1 := by
  have found {number : Nat} {more : List UInt8} (after : List UInt8)
      (range : number < 0xD800 ∨ 0xDFFF < number ∧ number < 0x110000)
      (same : encodedBytes number = first :: more) :
      ∃ char found later, char.toNat = number ∧ String.utf8EncodeChar char = first :: found ∧
        more ++ after = found ++ later ∧ more.length + 1 = found.length + 1 :=
    ⟨Char.ofNatAux number range, more, after, rfl, same, rfl, rfl⟩
  revert head
  fun_cases utf8Head first rest
  all_goals
    intro head
    cases head
  case case1.refl low =>
    rw [UInt8.lt_iff_toNat_lt] at low
    exact found rest (.inl (Nat.lt_trans low (by decide))) (encodedBytes_one low)
  case case4.refl notOne low high second after continues =>
    simp only [UInt8.lt_iff_toNat_lt, UInt8.reduceToNat] at low high
    have low := Nat.le_of_not_lt low
    have bounds := continues
    rw [isSecond_iff] at bounds
    exact found after (by unfold payload; omega) (encodedBytes_two low high continues)
  case case11.refl notOne notTail low high second third after continues ends =>
    simp only [UInt8.lt_iff_toNat_lt, UInt8.reduceToNat] at low high
    rw [Bool.not_eq_true', Bool.not_eq_false] at continues ends
    have low := Nat.le_of_not_lt low
    have bounds := continues
    rw [isSecond_iff] at bounds
    exact found after (by unfold payload; omega) (encodedBytes_three low high continues ends)
  case case18.refl notOne notTail notTwo low high second continues third goesOn fourth after ends =>
    simp only [UInt8.lt_iff_toNat_lt, UInt8.reduceToNat] at low high
    rw [Bool.not_eq_true', Bool.not_eq_false] at continues goesOn ends
    have low := Nat.le_of_not_lt low
    have bounds := continues
    rw [isSecond_iff] at bounds
    exact found after (by unfold payload; omega) (encodedBytes_four low high continues goesOn ends)

/-! ## Bytes of many characters -/

variable {surrogates : Bool} {done : Text} {bytes : List UInt8} {chars : List Char}

/-- The bytes of the last character are passed over. -/
theorem decodeUtf8From_skip (position : Nat) (skipped rest : List UInt8) :
    ∃ later, decodeUtf8From surrogates done position skipped.length (skipped ++ rest) =
      decodeUtf8From surrogates done later 0 rest := by
  induction skipped generalizing position with
  | nil => exact ⟨position, rfl⟩
  | cons byte skipped ih => exact ih (position + 1)

/-- A character's bytes are read as the character. -/
theorem decodeUtf8From_encoded (char : Char) (position : Nat) (rest : List UInt8) :
    ∃ later, decodeUtf8From surrogates done position 0 (String.utf8EncodeChar char ++ rest) =
      decodeUtf8From surrogates (.scalar char :: done) later 0 rest := by
  cases encoded : String.utf8EncodeChar char with
  | nil => exact absurd encoded String.utf8EncodeChar_ne_nil
  | cons first more =>
    rw [List.cons_append, decodeUtf8From, utf8Head_encoded char encoded]
    simp only [Char.ofNat_toNat, Nat.add_sub_cancel]
    exact decodeUtf8From_skip (position + 1) more rest

theorem decodeUtf8From_flatMap (position : Nat) :
    decodeUtf8From surrogates done position 0 (chars.flatMap String.utf8EncodeChar) =
      .ok (done.reverse ++ ofChars chars) := by
  induction chars generalizing done position with
  | nil => simp [decodeUtf8From, ofChars]
  | cons char chars ih =>
    rw [List.flatMap_cons]
    obtain ⟨later, same⟩ := decodeUtf8From_encoded char position _
    rw [same, ih]
    simp [ofChars]

theorem exists_flatMap_of_decodeUtf8From {position : Nat} {text : Text}
    (decoded : decodeUtf8From false done position 0 bytes = .ok text) :
    ∃ chars : List Char, bytes = chars.flatMap String.utf8EncodeChar := by
  -- Each character takes a byte at least.
  induction size : bytes.length using Nat.strongRecOn generalizing bytes done position with
  | _ size ih =>
  cases bytes with
  | nil => exact ⟨[], rfl⟩
  | cons first rest =>
    rw [decodeUtf8From] at decoded
    cases head : utf8Head first rest with
    | fault length cause =>
      rw [head] at decoded
      cases decoded
    | char number length =>
      obtain ⟨char, more, after, rfl, encoded, rfl, rfl⟩ := exists_encoded_of_utf8Head head
      rw [head] at decoded
      dsimp only at decoded
      rw [Nat.add_sub_cancel] at decoded
      obtain ⟨later, same⟩ := decodeUtf8From_skip (position + 1) more after
      rw [same] at decoded
      obtain ⟨chars, rfl⟩ := ih after.length (by simp at size; omega) decoded rfl
      refine ⟨char :: chars, ?_⟩
      rw [List.flatMap_cons, encoded, List.cons_append]

/-- Bytes are read as characters just when they are the encoding of those. -/
theorem decodeChars_eq_ok_iff :
    decodeChars bytes = .ok chars ↔ bytes = chars.flatMap String.utf8EncodeChar := by
  have decoded (chars : List Char) :
      decodeChars (chars.flatMap String.utf8EncodeChar) = .ok chars := by
    rw [decodeChars, decodeUtf8, decodeUtf8From_flatMap]
    have same : (ofChars chars).filterMap CodePoint.char? = chars := by
      rw [ofChars, List.filterMap_map]
      exact List.filterMap_some
    simp [Except.map, same]
  constructor
  · intro read
    obtain ⟨text, whole, -⟩ := map_eq_ok_iff.mp read
    obtain ⟨other, rfl⟩ := exists_flatMap_of_decodeUtf8From whole
    rw [Except.ok.inj (read.symm.trans (decoded other))]
  · rintro rfl
    exact decoded chars

theorem toList_eq_data (bytes : ByteArray) : bytes.toList = bytes.data.toList := by
  have loop (index : Nat) (done : List UInt8) :
      ByteArray.toList.loop bytes index done = done.reverse ++ bytes.data.toList.drop index := by
    fun_induction ByteArray.toList.loop bytes index done with
    | case1 index done small ih =>
      have inside : index < bytes.data.toList.length := small
      rw [ih, List.drop_eq_getElem_cons inside, List.reverse_cons, List.append_assoc]
      congr 2
      simp [ByteArray.get!, small]
    | case2 index done small =>
      have ended : bytes.data.toList.length ≤ index := Nat.le_of_not_lt small
      rw [List.drop_of_length_le ended, List.append_nil]
  rw [ByteArray.toList, loop, List.drop_zero]
  rfl

theorem decodeChars_toList_eq_ok_iff {bytes : ByteArray} :
    decodeChars bytes.toList = .ok chars ↔ bytes = chars.utf8Encode := by
  have restored : bytes.data.toList.toByteArray = bytes :=
    ByteArray.ext (by rw [List.data_toByteArray, Array.toArray_toList])
  rw [decodeChars_eq_ok_iff, toList_eq_data, ← List.toByteArray_inj, List.utf8Encode, restored]

/-- Bytes that are not read are the encoding of no text. -/
theorem exists_decodeChars_eq_error_iff {bytes : ByteArray} :
    (∃ fault, decodeChars bytes.toList = .error fault) ↔ ¬ bytes.IsValidUTF8 := by
  rw [exists_error_iff_not_exists_ok]
  apply not_congr
  constructor
  · intro ⟨chars, read⟩
    exact ⟨chars, decodeChars_toList_eq_ok_iff.mp read⟩
  · rintro ⟨chars, same⟩
    exact ⟨chars, decodeChars_toList_eq_ok_iff.mpr same⟩

end ProtocolGen.Text
