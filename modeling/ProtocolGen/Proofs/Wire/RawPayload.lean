import ProtocolGen.Proofs.Json.RoundTrip
import ProtocolGen.Wire.RawPayload

/-!
# Payloads of JSON values

A JSON value that goes into a payload comes back out, and a payload that holds one has a canonical
form.
-/

set_option autoImplicit false

namespace ProtocolGen.Wire.RawPayload

/-! ## Bytes of ASCII characters -/

/-- Without a mark it is zero bytes that tell other encodings from UTF-8. -/
theorem unmarked_of_nonzero {bytes : List UInt8} (nonzero : ∀ byte ∈ bytes, ¬ byte == 0) :
    Text.Encoding.unmarked bytes = .utf8 0 := by
  fun_cases Text.Encoding.unmarked bytes with
  | case1 _ _ _ _ _ zero | case2 _ _ _ _ _ zero | case6 _ _ zero =>
    exact absurd zero (nonzero _ List.mem_cons_self)
  | case3 _ _ _ _ _ _ zero | case4 _ _ _ _ _ _ zero | case7 _ _ _ zero =>
    exact absurd zero (nonzero _ (List.mem_cons_of_mem _ List.mem_cons_self))
  | case5 | case8 | case9 => rfl

section Ascii

variable {chars : List Char} (ascii : ∀ char ∈ chars, 0 < char.toNat ∧ char.toNat < 0x80)

include ascii

theorem toNat_of_mem_asciiBytes {byte : UInt8} (member : byte ∈ asciiBytes chars) :
    0 < byte.toNat ∧ byte.toNat < 0x80 := by
  obtain ⟨char, inside, rfl⟩ := List.mem_map.mp member
  have range := ascii char inside
  rw [UInt8.toNat_ofNat']
  omega

theorem map_ofNat_asciiBytes : (asciiBytes chars).map (fun byte => Char.ofNat byte.toNat) = chars := by
  rw [asciiBytes, List.map_map]
  refine (List.map_congr_left ?_).trans (List.map_id chars)
  intro char member
  have range := ascii char member
  rw [Function.comp_apply, UInt8.toNat_ofNat', Nat.mod_eq_of_lt (by omega), Char.ofNat_toNat, id]

theorem asciiBytes_eq_flatMap : asciiBytes chars = chars.flatMap String.utf8EncodeChar := by
  rw [asciiBytes, List.map_eq_flatMap]
  apply List.flatMap_congr
  intro char member
  have range := ascii char member
  rw [Text.utf8EncodeChar_eq, Text.encodedBytes, if_pos (by omega)]

/-- Each byte order mark has a byte that is not ASCII or is zero. -/
theorem detect_asciiBytes : Text.Encoding.detect (asciiBytes chars) = .utf8 0 := by
  have noMark : Text.Encoding.marks.find? (·.1.isPrefixOf (asciiBytes chars)) = none := by
    have odd : ∀ mark ∈ Text.Encoding.marks,
        ∃ byte ∈ mark.1, ¬ (0 < byte.toNat ∧ byte.toNat < 0x80) := by decide
    rw [List.find?_eq_none]
    intro mark known begins
    obtain ⟨byte, inMark, outside⟩ := odd mark known
    have member := (List.isPrefixOf_iff_prefix.mp begins).subset inMark
    exact outside (toNat_of_mem_asciiBytes ascii member)
  have nonzero : ∀ byte ∈ asciiBytes chars, ¬ byte == 0 := by
    intro byte member zero
    rw [beq_iff_eq] at zero
    exact absurd (toNat_of_mem_asciiBytes ascii member).1 (zero ▸ by decide)
  rw [Text.Encoding.detect, noMark]
  exact unmarked_of_nonzero nonzero

theorem decodeDetected_asciiBytes :
    Text.decodeDetected (asciiBytes chars) = .ok (Text.ofChars chars) := by
  rw [Text.decodeDetected, detect_asciiBytes ascii]
  dsimp only
  rw [List.drop_zero, Text.decodeUtf8, asciiBytes_eq_flatMap ascii]
  exact Text.decodeUtf8From_flatMap 0

end Ascii

/-! ## Round trips -/

/-- What is left of some bytes once their payload has gone to the wire and come back. -/
def reencoded? (bytes : List UInt8) : Option (List UInt8) := do
  let payload ← (fromWire (.octets bytes)).toOption
  let data ← payload.toWire.toOption
  let again ← (fromWire data).toOption
  some again.bytes

/-- The payload of a value other than nothing is its compact form. -/
theorem fromWire_of_ne_null {data : Data} (json : Json.IsValue data) (some : data ≠ .null)
    {chars : List Char} (form : Json.written data = .ok chars) :
    fromWire data = .ok ⟨asciiBytes chars⟩ := by
  cases json with
  | null => contradiction
  | _ =>
    simp only [fromWire, form]
    rfl

theorem toWire_asciiBytes {data : Data} (json : Json.IsValue data) {chars : List Char}
    (form : Json.written data = .ok chars) : toWire ⟨asciiBytes chars⟩ = .ok data := by
  have ascii := (json.isCompact form).ascii
  obtain ⟨head, tail, shape, -⟩ := (json.readsBack form).starts
  rw [toWire, if_pos (by rw [shape]; rfl)]
  dsimp only
  rw [decodeDetected_asciiBytes ascii]
  dsimp only
  rw [Json.readDecoded, Json.whole_written json form]
  rfl

/-- A value's payload is made of compact characters, which there are unless the value is nothing, and
gives the value back. -/
theorem exists_chars_of_isValue {data : Data} (json : Json.IsValue data) :
    ∃ chars, fromWire data = .ok ⟨asciiBytes chars⟩ ∧ toWire ⟨asciiBytes chars⟩ = .ok data ∧
      Json.IsCompact chars ∧ (chars = [] ↔ data = .null) := by
  by_cases null : data = .null
  · subst null
    exact ⟨[], rfl, rfl, .nil, iff_of_true rfl rfl⟩
  · obtain ⟨chars, form⟩ := json.exists_written
    refine ⟨chars, fromWire_of_ne_null json null form, toWire_asciiBytes json form,
      json.isCompact form, ?_⟩
    obtain ⟨head, tail, rfl, -⟩ := (json.readsBack form).starts
    exact iff_of_false (List.cons_ne_nil _ _) null

/-- A JSON value goes into a payload and comes back out as it was. The payload is ASCII, has no blank
outside string literals, and is empty just for nothing. So bytes that hold the value, empty ones for
nothing among them, have one canonical form, which is its own. -/
theorem round_trip {data : Data} (json : Json.IsValue data) :
    ∃ payload, fromWire data = .ok payload ∧ payload.toWire = .ok data ∧
      (∀ byte ∈ payload.bytes, byte.toNat < 0x80) ∧
      (∀ char ∈ Json.outsideLiterals false (payload.bytes.map fun byte => Char.ofNat byte.toNat),
        char ∉ [' ', '\t', '\n', '\r']) ∧
      (payload.bytes = [] ↔ data = .null) ∧
      ∀ bytes, toWire ⟨bytes⟩ = .ok data →
        reencoded? bytes = some payload.bytes ∧ reencoded? payload.bytes = some payload.bytes := by
  obtain ⟨chars, into, back, compact, empty⟩ := exists_chars_of_isValue json
  have again (bytes : List UInt8) (holds : toWire ⟨bytes⟩ = .ok data) :
      reencoded? bytes = some (asciiBytes chars) := by
    have kept : fromWire (.octets bytes) = .ok ⟨bytes⟩ := rfl
    rw [reencoded?, kept]
    simp only [Except.toOption, Option.bind_eq_bind, Option.bind_some, holds, into]
  refine ⟨⟨asciiBytes chars⟩, into, back, ?_, ?_, ?_, ?_⟩
  · exact fun byte member => (toNat_of_mem_asciiBytes compact.ascii member).2
  · rw [map_ofNat_asciiBytes compact.ascii]
    intro char member blank
    have shown : Json.isBlank char := by
      simpa [Json.isBlank, Json.isSpace, or_assoc] using blank
    have dark := compact.notBlank char member
    rw [shown] at dark
    exact Bool.false_ne_true dark
  · rw [← empty]
    exact List.map_eq_nil_iff
  · exact fun bytes holds => ⟨again bytes holds, again _ back⟩

/-- A table with a list, the text beyond ASCII. -/
def reading : Data :=
  .table [(Text.ofChars ['n'], .list [.null, .boolean true, .integer (-12), .text (Text.ofChars ['é'])])]

theorem reading_round_trip :
    Json.IsValue reading ∧ ∃ payload, fromWire reading = .ok payload ∧
      payload.toWire = .ok reading ∧ payload.bytes ≠ [] ∧
      reencoded? payload.bytes = some payload.bytes := by
  have json : Json.IsValue reading := by
    refine .table (by simp) ?_ ?_
    · intro entry member
      obtain rfl := List.mem_singleton.mp member
      exact ⟨_, rfl⟩
    · intro entry member
      obtain rfl := List.mem_singleton.mp member
      have short : (Nat.toDigits 10 (-12 : Int).natAbs).length ≤ Json.maximumDigits := by decide
      refine .list ?_
      simp [Json.IsValue.null, Json.IsValue.boolean, Json.IsValue.integer short, Json.IsValue.text]
  obtain ⟨payload, into, back, -, -, empty, canonical⟩ := round_trip json
  refine ⟨json, payload, into, back, ?_, (canonical payload.bytes back).2⟩
  intro nothing
  cases empty.mp nothing

end ProtocolGen.Wire.RawPayload
