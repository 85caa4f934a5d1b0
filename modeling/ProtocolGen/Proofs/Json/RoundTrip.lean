import ProtocolGen.Proofs.Json.Compact
import ProtocolGen.Proofs.Text.Decoding

/-!
# Reading back what was written

The compact form of a value is read as that value, whatever stands behind it, as long as that does
not go on with a number. A list costs its reader two steps for each level and one for each item, so
the steps that a text of that length is given suffice.
-/

set_option autoImplicit false

namespace ProtocolGen.Json

/-! ## Strings -/

section Strings

variable {content rest : Text}

theorem stringFrom_skip (skipped : Text) :
    stringFrom content skipped.length (skipped ++ rest) = stringFrom content 0 rest := by
  induction skipped with
  | nil => rfl
  | cons point skipped ih =>
    rw [List.cons_append, List.length_cons]
    exact ih

theorem fourHex?_hexDigits {unit : Nat} (small : unit < 0x10000) :
    fourHex? (Text.ofChars (Text.hexDigits 4 unit)) = some unit := by
  have back : ∀ digit : Fin 16, hexDigit? (.scalar (Text.hexDigit digit)) = some digit.val := by
    decide
  have digit (number : Nat) :
      hexDigit? (.scalar (Text.hexDigit (number % 16))) = some (number % 16) :=
    back ⟨number % 16, Nat.mod_lt _ (by decide)⟩
  simp only [Text.hexDigits, Text.ofChars, List.nil_append, List.cons_append, List.map_cons,
    List.map_nil, fourHex?, digit, bind, Option.bind, Option.some.injEq]
  omega

theorem length_hexDigits (count number : Nat) : (Text.hexDigits count number).length = count := by
  induction count generalizing number with
  | zero => rfl
  | succ count ih => rw [Text.hexDigits, List.length_append, ih, List.length_singleton]

theorem take_hexDigits (unit : Nat) (rest : Text) :
    (Text.ofChars (Text.hexDigits 4 unit) ++ rest).take 4 = Text.ofChars (Text.hexDigits 4 unit) := by
  apply List.take_left'
  rw [Text.ofChars, List.length_map, length_hexDigits]

theorem drop_hexDigits (unit : Nat) (rest : Text) :
    (Text.ofChars (Text.hexDigits 4 unit) ++ rest).drop 4 = rest := by
  apply List.drop_left'
  rw [Text.ofChars, List.length_map, length_hexDigits]

theorem unicodeEscape_alone {unit : Nat} {point : CodePoint} (small : unit < 0x10000)
    (notHigh : unit < 0xD800 ∨ 0xDC00 ≤ unit) (found : CodePoint.ofNat? unit = some point)
    (more : rest ≠ []) :
    unicodeEscape (.scalar 'u' :: (Text.ofChars (Text.hexDigits 4 unit) ++ rest)) =
      .ok (point, 5) := by
  have notHigh : ¬ (0xD800 ≤ unit ∧ unit < 0xDC00) := by omega
  rw [unicodeEscape, List.drop_succ_cons, List.drop_succ_cons, List.drop_zero, take_hexDigits,
    drop_hexDigits, fourHex?_hexDigits small]
  match rest with
  | [_] | _ :: _ :: _ => simp [found, notHigh]

theorem unicodeEscape_pair {high low : Nat} (highRange : 0xD800 ≤ high ∧ high < 0xDC00)
    (lowRange : 0xDC00 ≤ low ∧ low < 0xE000) (more : rest ≠ []) :
    unicodeEscape (.scalar 'u' :: (Text.ofChars (Text.hexDigits 4 high) ++
        (Text.ofChars (unitEscape low) ++ rest))) = .ok (joinSurrogates high low, 11) := by
  have second : Text.ofChars (unitEscape low) ++ rest =
      .scalar '\\' :: .scalar 'u' :: (Text.ofChars (Text.hexDigits 4 low) ++ rest) := rfl
  rw [unicodeEscape, List.drop_succ_cons, List.drop_succ_cons, List.drop_zero, take_hexDigits,
    drop_hexDigits, fourHex?_hexDigits (by omega), second]
  simp [highRange, lowRange, more, isChar, take_hexDigits, drop_hexDigits,
    fourHex?_hexDigits (show low < 0x10000 by omega)]

theorem ofNat?_toNat (char : Char) : CodePoint.ofNat? char.toNat = some (.scalar char) :=
  dif_pos char.valid

/-- The unit of an escape is passed over with what its reader takes for it. -/
theorem stringFrom_unitEscape {unit length : Nat} {point : CodePoint} (skipped : Text)
    (read : unicodeEscape (.scalar 'u' :: (Text.ofChars (Text.hexDigits 4 unit) ++
      (skipped ++ rest))) = .ok (point, length)) (all : length = skipped.length + 5) :
    stringFrom content 0 (Text.ofChars (unitEscape unit) ++ (skipped ++ rest)) =
      stringFrom (point :: content) 0 rest := by
  have escape : Text.ofChars (unitEscape unit) ++ (skipped ++ rest) = .scalar '\\' ::
      .scalar 'u' :: (Text.ofChars (Text.hexDigits 4 unit) ++ (skipped ++ rest)) := rfl
  have taken : length =
      (.scalar 'u' :: (Text.ofChars (Text.hexDigits 4 unit) ++ skipped) : Text).length := by
    rw [List.length_cons, List.length_append, Text.ofChars, List.length_map, length_hexDigits, all]
    omega
  rw [escape, stringFrom]
  simp only [isChar, read]
  rw [taken, ← List.append_assoc, ← List.cons_append]
  exact stringFrom_skip _

theorem stringFrom_named {letter char : Char} (notUnit : letter ≠ 'u')
    (named : simpleEscape? (.scalar letter) = some char) :
    stringFrom content 0 (Text.ofChars ['\\', letter] ++ rest) =
      stringFrom (.scalar char :: content) 0 rest := by
  simp [Text.ofChars, stringFrom, isChar, notUnit, named]

/-- The surrogates that stand for a character beyond the basic plane. -/
theorem surrogates_of_beyond {char : Char} (beyond : 0x10000 ≤ char.toNat) :
    let high := 0xD800 + (char.toNat - 0x10000) / 0x400
    let low := 0xDC00 + (char.toNat - 0x10000) % 0x400
    (0xD800 ≤ high ∧ high < 0xDC00) ∧ (0xDC00 ≤ low ∧ low < 0xE000) ∧
      joinSurrogates high low = .scalar char := by
  have range := Text.toNat_range char
  intro high low
  have number : 0x10000 + (high - 0xD800) * 0x400 + (low - 0xDC00) = char.toNat := by
    unfold high low
    omega
  refine ⟨⟨by omega, by omega⟩, ⟨by omega, by omega⟩, ?_⟩
  rw [joinSurrogates, number, Char.ofNat_toNat]

/-- A written character is read back, where anything at all stands behind it. -/
theorem stringFrom_writtenPoint (char : Char) (more : rest ≠ []) :
    stringFrom content 0 (Text.ofChars (writtenPoint (.scalar char)) ++ rest) =
      stringFrom (.scalar char :: content) 0 rest := by
  have range := Text.toNat_range char
  generalize same : CodePoint.scalar char = point
  fun_cases writtenPoint point
  case case8 noQuote noBackslash _ _ _ _ _ printable =>
    obtain ⟨rfl⟩ := same
    rw [Bool.and_eq_true, decide_eq_true_eq, decide_eq_true_eq] at printable
    have visible : ¬ (CodePoint.scalar char).value < 0x20 := Nat.not_lt.mpr printable.1
    have noQuote : isChar '"' (.scalar char) = false := beq_eq_false_iff_ne.mpr noQuote
    have noBackslash : isChar '\\' (.scalar char) = false := beq_eq_false_iff_ne.mpr noBackslash
    change stringFrom content 0 (.scalar char :: rest) = _
    rw [stringFrom.eq_def]
    simp only [noQuote, noBackslash, visible, Bool.false_eq_true, ↓reduceIte]
  case case9 small =>
    cases same
    have read := unicodeEscape_alone small (by omega) (ofNat?_toNat char) more
    exact stringFrom_unitEscape [] read rfl
  case case10 =>
    cases same
    have beyond : 0x10000 ≤ char.toNat := by omega
    obtain ⟨highRange, lowRange, joined⟩ := surrogates_of_beyond beyond
    have read := unicodeEscape_pair highRange lowRange more
    rw [joined] at read
    rw [Text.ofChars, List.map_append, List.append_assoc]
    refine stringFrom_unitEscape _ read ?_
    rw [List.length_map, unitEscape, List.length_cons, List.length_cons, length_hexDigits]
  case case11 => cases same
  all_goals
    cases same
    exact stringFrom_named (by decide) rfl

theorem stringFrom_written (chars : List Char) :
    stringFrom content 0 (Text.ofChars ((Text.ofChars chars).flatMap writtenPoint) ++
      .scalar '"' :: rest) = .ok (content.reverse ++ Text.ofChars chars, rest) := by
  induction chars generalizing content with
  | nil => simp [Text.ofChars, stringFrom.eq_def, isChar]
  | cons char chars ih =>
    have split : Text.ofChars ((Text.ofChars (char :: chars)).flatMap writtenPoint) =
        Text.ofChars (writtenPoint (.scalar char)) ++
          Text.ofChars ((Text.ofChars chars).flatMap writtenPoint) := by
      rw [Text.ofChars, Text.ofChars, List.map_cons, List.flatMap_cons, List.map_append]
      rfl
    rw [split, List.append_assoc, stringFrom_writtenPoint char (by simp), ih]
    simp [Text.ofChars]

theorem string_written (chars : List Char) :
    string (Text.ofChars ((Text.ofChars chars).flatMap writtenPoint) ++ .scalar '"' :: rest) =
      .ok (Text.ofChars chars, rest) := by
  rw [string, stringFrom_written]
  rfl

end Strings

/-! ## Integers -/

/-- A text that does not go on with a number. -/
def EndsNumber (text : Text) : Prop :=
  ∀ point ∈ text.head?, digit? point = none ∧ !isChar '.' point ∧ !isChar 'e' point ∧
    !isChar 'E' point

section Integers

variable {rest : Text}

theorem digits_append {chars : List Char} (all : ∀ char ∈ chars, char.isDigit)
    (ends : EndsNumber rest) :
    digits (Text.ofChars chars ++ rest) = (chars.map fun char => char.toNat - '0'.toNat, rest) := by
  have found : ∀ char ∈ chars, digit? (.scalar char) = some (char.toNat - '0'.toNat) :=
    fun char member => if_pos (all char member)
  have stops : rest.takeWhile (fun point => (digit? point).isSome) = [] := by
    cases rest with
    | nil => rfl
    | cons point rest => simp [(ends point rfl).1]
  have taken : (Text.ofChars chars ++ rest).takeWhile (fun point => (digit? point).isSome) =
      Text.ofChars chars := by
    rw [List.takeWhile_append_of_pos, stops, List.append_nil]
    intro point member
    obtain ⟨char, inside, rfl⟩ := List.mem_map.mp member
    rw [found char inside, Option.isSome_some]
  have values : (Text.ofChars chars).filterMap digit? =
      chars.map fun char => char.toNat - '0'.toNat := by
    rw [Text.ofChars, List.filterMap_map, ← List.filterMap_eq_map]
    exact List.filterMap_congr found
  rw [digits, taken, List.drop_left, values]

theorem numberOf_toDigits (number : Nat) :
    numberOf ((Nat.toDigits 10 number).map fun char => char.toNat - '0'.toNat) = number := by
  rw [numberOf, List.foldl_map]
  simp only [Nat.mul_comm _ 10]
  rw [← Nat.ofDigitChars_eq_foldl, Nat.ofDigitChars_ten_toDigits]

theorem exists_toDigits (number : Nat) :
    ∃ char chars, Nat.toDigits 10 number = char :: chars ∧ char.isDigit := by
  have nonempty : Nat.toDigits 10 number ≠ [] := Nat.toDigits_ne_nil
  obtain ⟨char, chars, shape⟩ := List.exists_cons_of_ne_nil nonempty
  have member : char ∈ Nat.toDigits 10 number := shape ▸ List.mem_cons_self
  exact ⟨char, chars, shape, Nat.isDigit_of_mem_toDigits (by decide) (by decide) member⟩

theorem isChar_eq_false_of_isDigit {char other : Char} (digit : char.isDigit)
    (noDigit : ¬ other.isDigit) : isChar other (.scalar char) = false := by
  rw [isChar, beq_eq_false_iff_ne]
  rintro rfl
  exact noDigit digit

theorem exists_toDigits_of_pos {number : Nat} (positive : 0 < number) :
    ∃ char chars, Nat.toDigits 10 number = char :: chars ∧ char ≠ '0' := by
  induction number using Nat.strongRecOn with
  | _ number ih =>
  rcases Nat.lt_or_ge number 10 with small | large
  · refine ⟨number.digitChar, [], Nat.toDigits_of_lt_base small, ?_⟩
    rw [Ne, Nat.digitChar_eq_zero]
    omega
  · obtain ⟨char, chars, shape, notZero⟩ := ih (number / 10) (by omega) (by omega)
    refine ⟨char, chars ++ [(number % 10).digitChar], ?_, notZero⟩
    rw [Nat.toDigits_of_base_le (by decide) large, shape, List.cons_append]

theorem wholeDigits?_toDigits (number : Nat) (ends : EndsNumber rest) :
    wholeDigits? (Text.ofChars (Nat.toDigits 10 number) ++ rest) =
      some ((Nat.toDigits 10 number).map fun char => char.toNat - '0'.toNat, rest) := by
  have all : ∀ char ∈ Nat.toDigits 10 number, char.isDigit :=
    fun char => Nat.isDigit_of_mem_toDigits (by decide) (by decide)
  rcases Nat.eq_zero_or_pos number with rfl | positive
  · rfl
  · have run := digits_append all ends
    obtain ⟨char, chars, shape, notZero⟩ := exists_toDigits_of_pos positive
    rw [shape] at all run ⊢
    have digit := all char List.mem_cons_self
    have value : digit? (.scalar char) = some (char.toNat - '0'.toNat) := if_pos digit
    have nonzero : char.toNat - '0'.toNat ≠ 0 := by
      have low := (Char.isDigit_iff_toNat.mp digit).1
      intro zero
      exact notZero (Char.toNat_inj.mp (by omega))
    rw [← run]
    simp only [Text.ofChars, List.map_cons, List.cons_append, wholeDigits?, value]

theorem fractionDigits?_eq_none (ends : EndsNumber rest) : fractionDigits? rest = none := by
  cases rest with
  | nil => rfl
  | cons point rest =>
    obtain ⟨-, noPoint, -⟩ := ends point rfl
    rw [Bool.not_eq_true'] at noPoint
    simp [fractionDigits?, noPoint]

theorem exponentPart?_eq_none (ends : EndsNumber rest) : exponentPart? rest = none := by
  cases rest with
  | nil => rfl
  | cons point rest =>
    obtain ⟨-, -, noSmall, noLarge⟩ := ends point rfl
    rw [Bool.not_eq_true'] at noSmall noLarge
    simp [exponentPart?, noSmall, noLarge]

/-- An integer is read with its sign, where its digits are no more than the limit. -/
theorem number?_integer {text unsigned : Text} {whole : List Nat} {negative : Bool}
    (signed : negative = true ∧ text = .scalar '-' :: unsigned ∨
      negative = false ∧ text = unsigned ∧ ∀ head ∈ text.head?, !isChar '-' head)
    (read : wholeDigits? unsigned = some (whole, rest)) (short : whole.length ≤ maximumDigits)
    (ends : EndsNumber rest) :
    number? text = some (.ok (.integer (if negative then -(numberOf whole) else numberOf whole),
      rest)) := by
  have noFraction := fractionDigits?_eq_none ends
  have noExponent := exponentPart?_eq_none ends
  have short : ¬ maximumDigits < whole.length := Nat.not_lt.mpr short
  rcases signed with ⟨rfl, rfl⟩ | ⟨rfl, rfl, noSign⟩
  · simp [number?, isChar, read, noFraction, noExponent, short]
  · cases text with
    | nil => cases read
    | cons head tail =>
      have noSign : isChar '-' head = false := (Bool.not_eq_true' _).mp (noSign head rfl)
      simp [number?, noSign, read, noFraction, noExponent, short]

theorem number?_writtenInteger {number : Int}
    (short : (Nat.toDigits 10 number.natAbs).length ≤ maximumDigits) (ends : EndsNumber rest) :
    number? (Text.ofChars (writtenInteger number) ++ rest) = some (.ok (.integer number, rest)) := by
  have read := wholeDigits?_toDigits number.natAbs ends
  rw [← List.length_map] at short
  rw [writtenInteger]
  split
  · next negative =>
    have signed := number?_integer (.inl ⟨rfl, rfl⟩) read short ends
    rw [numberOf_toDigits] at signed
    refine signed.trans ?_
    rw [if_pos rfl]
    congr
    omega
  · next positive =>
    obtain ⟨char, chars, shape, digit⟩ := exists_toDigits number.natAbs
    have noSign : ∀ head ∈ (Text.ofChars (Nat.toDigits 10 number.natAbs) ++ rest).head?,
        !isChar '-' head := by
      rw [shape]
      rintro head ⟨⟩
      rw [isChar_eq_false_of_isDigit digit (by decide), Bool.not_false]
    have unsigned := number?_integer (.inr ⟨rfl, rfl, noSign⟩) read short ends
    rw [numberOf_toDigits] at unsigned
    refine unsigned.trans ?_
    rw [if_neg Bool.false_ne_true]
    congr
    omega

/-- The first characters of other values, and blanks. -/
def otherMarks : List Char := ['"', '[', ']', '{', ' ', '\t', '\n', '\r']

theorem word?_writtenInteger (number : Int) :
    ∃ head tail, writtenInteger number = head :: tail ∧ head ∉ otherMarks ∧
      ∀ rest, word? (Text.ofChars (writtenInteger number) ++ rest) = none := by
  obtain ⟨char, chars, shape, digit⟩ := exists_toDigits number.natAbs
  have unlike {other : Char} (noDigit : ¬ other.isDigit) : isChar other (.scalar char) = false :=
    isChar_eq_false_of_isDigit digit noDigit
  rw [writtenInteger, shape]
  split
  · refine ⟨'-', char :: chars, rfl, by decide, fun rest => ?_⟩
    have sign (other : Char) : isChar other (.scalar '-') = ('-' == other) := rfl
    simp [word?, wordValues, Text.ofChars, afterWord?, sign, unlike]
  · refine ⟨char, chars, rfl, ?_, fun rest => ?_⟩
    · have noDigits : ∀ mark ∈ otherMarks, ¬ mark.isDigit := by decide
      exact fun member => noDigits char member digit
    · simp [word?, wordValues, Text.ofChars, afterWord?, unlike]

end Integers

/-! ## Tables -/

theorem insertEntry_of_not_mem {key : Text} {value : Data} {entries : List (Text × Data)}
    (new : key ∉ entries.map Prod.fst) :
    Data.insertEntry key value entries = entries ++ [(key, value)] := by
  induction entries with
  | nil => rfl
  | cons entry entries ih =>
    rw [List.map_cons, List.mem_cons, not_or] at new
    obtain ⟨other, new⟩ := new
    rw [Data.insertEntry, if_neg (Ne.symm other), ih new, List.cons_append]

theorem foldl_insertEntry {before entries : List (Text × Data)}
    (distinct : ((before ++ entries).map Prod.fst).Nodup) :
    entries.foldl (fun entries (key, value) => Data.insertEntry key value entries) before =
      before ++ entries := by
  induction entries generalizing before with
  | nil => rw [List.foldl_nil, List.append_nil]
  | cons entry entries ih =>
    obtain ⟨key, value⟩ := entry
    have new : key ∉ before.map Prod.fst := by
      rw [List.map_append, List.nodup_append] at distinct
      intro earlier
      exact distinct.2.2 _ earlier _ List.mem_cons_self rfl
    rw [List.append_cons] at distinct ⊢
    rw [List.foldl_cons, ← ih distinct, ← insertEntry_of_not_mem new]

/-- Mentions of different keys are the entries of their table. -/
theorem tableOf_of_nodup {entries : List (Text × Data)} (distinct : (entries.map Prod.fst).Nodup) :
    Data.tableOf entries = .table entries := by
  rw [Data.tableOf, foldl_insertEntry (List.nil_append entries ▸ distinct), List.nil_append]

/-! ## Values -/

/-- The characters begin as those of a value do, and a reader that has twice as many steps as there
are characters finds the value. -/
structure ReadsBack (data : Data) (chars : List Char) : Prop where
  starts : ∃ head tail, chars = head :: tail ∧ isBlank head = false ∧ head ≠ ']'
  read : ∀ {steps : Nat} {rest : Text}, 2 * chars.length ≤ steps → EndsNumber rest →
    value steps (Text.ofChars chars ++ rest) = .ok (data, rest)

section Lists

variable {steps : Nat} {rest : Text}

theorem skipSpaces_mark {char : Char} (dark : isBlank char = false) :
    skipSpaces (.scalar char :: rest) = .scalar char :: rest :=
  List.dropWhile_cons_of_neg (Bool.not_eq_true _ ▸ dark)

theorem ReadsBack.dark {data : Data} {chars : List Char} (back : ReadsBack data chars) :
    ∃ head tail, chars = head :: tail ∧ isBlank head = false := by
  obtain ⟨head, tail, shape, dark, -⟩ := back.starts
  exact ⟨head, tail, shape, dark⟩

theorem skipSpaces_written {data : Data} {chars : List Char} (back : ReadsBack data chars) :
    skipSpaces (Text.ofChars chars ++ rest) = Text.ofChars chars ++ rest := by
  obtain ⟨head, tail, rfl, dark⟩ := back.dark
  exact skipSpaces_mark dark

theorem endsNumber_mark {char : Char} (mark : char ∈ [',', ']', '}']) :
    EndsNumber (.scalar char :: rest) := by
  rintro point ⟨⟩
  revert char
  decide

section Commas

variable (piece next : List Char) (pieces : List (List Char))

theorem commas_cons : commas (piece :: next :: pieces) = piece ++ ',' :: commas (next :: pieces) := by
  rw [commas]
  exact List.cons_ne_nil next pieces

theorem ofChars_commas_cons : Text.ofChars (commas (piece :: next :: pieces)) ++ rest =
    Text.ofChars piece ++ .scalar ',' :: (Text.ofChars (commas (next :: pieces)) ++ rest) := by
  rw [commas_cons, Text.ofChars, List.map_append, List.append_assoc]
  rfl

theorem length_commas_cons : (commas (piece :: next :: pieces)).length =
    piece.length + (commas (next :: pieces)).length + 1 := by
  rw [commas_cons, List.length_append, List.length_cons, Nat.add_assoc]

/-- Joined pieces begin as the first of them. -/
theorem commas_begins (head : Char) (tail : List Char) :
    ∃ more, commas ((head :: tail) :: pieces) = head :: more := by
  cases pieces with
  | nil => exact ⟨tail, rfl⟩
  | cons next pieces => exact ⟨_, commas_cons (head :: tail) next pieces⟩

theorem skipSpaces_commas {next : List Char}
    (dark : ∃ head tail, next = head :: tail ∧ isBlank head = false) :
    skipSpaces (Text.ofChars (commas (next :: pieces)) ++ rest) =
      Text.ofChars (commas (next :: pieces)) ++ rest := by
  obtain ⟨head, tail, rfl, dark⟩ := dark
  obtain ⟨more, shape⟩ := commas_begins pieces head tail
  rw [shape]
  exact skipSpaces_mark dark

end Commas

theorem value_items {head : Char} (dark : isBlank head = false) (noClose : head ≠ ']') :
    value (steps + 1) (.scalar '[' :: .scalar head :: rest) =
      items steps [] (.scalar head :: rest) := by
  have noClose : isChar ']' (.scalar head) = false := beq_eq_false_iff_ne.mpr noClose
  rw [value, skipSpaces_mark dark]
  simp only [noClose]
  rfl

theorem value_entries :
    value (steps + 1) (.scalar '{' :: .scalar '"' :: rest) =
      entries steps [] (.scalar '"' :: rest) := by
  rw [value, skipSpaces_mark rfl]
  rfl

theorem items_last {text : Text} {item : Data} (done : List Data)
    (read : value steps text = .ok (item, .scalar ']' :: rest)) :
    items (steps + 1) done text = .ok (.list (done.reverse ++ [item]), rest) := by
  rw [items, read]
  simp only [skipSpaces_mark (show isBlank ']' = false from rfl), List.reverse_cons]
  rfl

theorem items_more {text : Text} {item : Data} (done : List Data)
    (read : value steps text = .ok (item, .scalar ',' :: rest)) :
    items (steps + 1) done text = items steps (item :: done) (skipSpaces rest) := by
  rw [items, read]
  simp only [skipSpaces_mark (show isBlank ',' = false from rfl)]
  rfl

theorem items_commas {data : List Data} {pieces : List (List Char)}
    (each : List.Forall₂ ReadsBack data pieces) (some : pieces ≠ [])
    (enough : 2 * (commas pieces).length + 1 ≤ steps) (done : List Data) :
    items steps done (Text.ofChars (commas pieces) ++ .scalar ']' :: rest) =
      .ok (.list (done.reverse ++ data), rest) := by
  induction each generalizing steps done with
  | nil => contradiction
  | @cons item piece data pieces back others ih =>
    obtain ⟨steps, rfl⟩ := Nat.exists_eq_add_of_le' (Nat.le_of_add_left_le enough)
    cases others with
    | nil =>
      rw [commas] at enough ⊢
      exact items_last done (back.read (by omega) (endsNumber_mark (by decide)))
    | @cons next second data later nextBack others =>
      rw [length_commas_cons] at enough
      rw [ofChars_commas_cons,
        items_more done (back.read (by omega) (endsNumber_mark (by decide)))]
      rw [skipSpaces_commas later nextBack.dark, ih (List.cons_ne_nil _ _) (by omega)]
      simp

/-- An entry's characters are its key as a text, a colon, and those of its value. -/
def EntryReadsBack (entry : Text × Data) (piece : List Char) : Prop :=
  ∃ name chars, entry.1 = Text.ofChars name ∧ piece = writtenText entry.1 ++ ':' :: chars ∧
    ReadsBack entry.2 chars

theorem EntryReadsBack.dark {entry : Text × Data} {piece : List Char}
    (back : EntryReadsBack entry piece) :
    ∃ head tail, piece = head :: tail ∧ isBlank head = false := by
  obtain ⟨name, chars, -, rfl, -⟩ := back
  exact ⟨'"', _, rfl, rfl⟩

theorem ofChars_entry (name chars : List Char) :
    Text.ofChars (writtenText (Text.ofChars name) ++ ':' :: chars) ++ rest =
      .scalar '"' :: (Text.ofChars ((Text.ofChars name).flatMap writtenPoint) ++
        .scalar '"' :: .scalar ':' :: (Text.ofChars chars ++ rest)) := by
  simp [writtenText, Text.ofChars]

/-- A reader of entries takes an entry and goes by the mark behind it. -/
theorem entries_entry {entry : Text × Data} {piece : List Char} (back : EntryReadsBack entry piece)
    (enough : 2 * piece.length ≤ steps) (done : List (Text × Data)) {mark : Char}
    (ends : mark ∈ [',', ']', '}']) :
    entries (steps + 1) done (Text.ofChars piece ++ .scalar mark :: rest) =
      if mark == '}' then .ok (Data.tableOf (entry :: done).reverse, rest)
      else if mark == ',' then entries steps (entry :: done) (skipSpaces rest)
      else .error (.expected .comma (rest.length + 1)) := by
  obtain ⟨key, data⟩ := entry
  obtain ⟨name, chars, rfl, rfl, value⟩ := back
  rw [List.length_append, List.length_cons] at enough
  have dark : isBlank mark = false := by
    revert mark
    decide
  rw [ofChars_entry, entries, string_written]
  simp only [isChar, beq_self_eq_true, Bool.not_true, Bool.false_eq_true, ↓reduceIte,
    skipSpaces_mark (show isBlank ':' = false from rfl), skipSpaces_written value,
    value.read (show 2 * chars.length ≤ steps by omega) (endsNumber_mark ends),
    skipSpaces_mark dark]
  rfl

theorem entries_commas {found : List (Text × Data)} {pieces : List (List Char)}
    (each : List.Forall₂ EntryReadsBack found pieces) (some : pieces ≠ [])
    (enough : 2 * (commas pieces).length + 1 ≤ steps) (done : List (Text × Data)) :
    entries steps done (Text.ofChars (commas pieces) ++ .scalar '}' :: rest) =
      .ok (Data.tableOf (done.reverse ++ found), rest) := by
  induction each generalizing steps done with
  | nil => contradiction
  | @cons entry piece found pieces back others ih =>
    obtain ⟨steps, rfl⟩ := Nat.exists_eq_add_of_le' (Nat.le_of_add_left_le enough)
    cases others with
    | nil =>
      rw [commas] at enough ⊢
      rw [entries_entry back (by omega) done (by decide), if_pos (beq_self_eq_true _),
        List.reverse_cons]
    | @cons next second found later nextBack others =>
      rw [length_commas_cons] at enough
      rw [ofChars_commas_cons, entries_entry back (by omega) done (by decide),
        if_neg (by decide), if_pos (beq_self_eq_true _), skipSpaces_commas later nextBack.dark,
        ih (List.cons_ne_nil _ _) (by omega)]
      simp

end Lists

/-- What begins as no other value does is a word or a number. -/
theorem value_plain {steps : Nat} {rest : Text} {head : Char} (plain : head ∉ otherMarks) :
    value (steps + 1) (.scalar head :: rest) =
      match word? (.scalar head :: rest) with
      | some found => .ok found
      | none =>
        match number? (.scalar head :: rest) with
        | some reading => reading
        | none => .error (.expected .value (rest.length + 1)) := by
  have unlike {mark : Char} (other : mark ∈ otherMarks) : isChar mark (.scalar head) = false := by
    rw [isChar, beq_eq_false_iff_ne]
    rintro rfl
    exact plain other
  rw [value, unlike (by decide), unlike (by decide), unlike (by decide)]
  rfl

theorem readsBack_plain {data : Data} {head : Char} {tail : List Char} (plain : head ∉ otherMarks)
    (read : ∀ rest, EndsNumber rest →
      word? (Text.ofChars (head :: tail) ++ rest) = some (data, rest) ∨
      word? (Text.ofChars (head :: tail) ++ rest) = none ∧
        number? (Text.ofChars (head :: tail) ++ rest) = some (.ok (data, rest))) :
    ReadsBack data (head :: tail) := by
  have unlike {mark : Char} (other : mark ∈ otherMarks) : head ≠ mark := by
    rintro rfl
    exact plain other
  refine ⟨⟨head, tail, rfl, ?_, unlike (by decide)⟩, ?_⟩
  · have blanks : ∀ blank ∈ [' ', '\t', '\n', '\r'], head ≠ blank :=
      fun blank member => unlike (List.mem_append_right ['"', '[', ']', '{'] member)
    simpa [isBlank, isSpace, and_assoc] using blanks
  · intro steps rest enough ends
    obtain ⟨steps, rfl⟩ := Nat.exists_eq_add_of_le' (Nat.le_trans (Nat.succ_pos _) enough)
    have shape : Text.ofChars (head :: tail) ++ rest =
        .scalar head :: (Text.ofChars tail ++ rest) := rfl
    rw [shape, value_plain plain, ← shape]
    rcases read rest ends with word | ⟨noWord, number⟩
    · rw [word]
    · rw [noWord, number]

theorem readsBack_integer {number : Int}
    (short : (Nat.toDigits 10 number.natAbs).length ≤ maximumDigits) :
    ReadsBack (.integer number) (writtenInteger number) := by
  obtain ⟨head, tail, shape, plain, noWord⟩ := word?_writtenInteger number
  have read (rest : Text) (ends : EndsNumber rest) := number?_writtenInteger short ends
  rw [shape] at noWord read ⊢
  exact readsBack_plain plain fun rest ends => .inr ⟨noWord rest, read rest ends⟩

theorem readsBack_text (chars : List Char) :
    ReadsBack (.text (Text.ofChars chars)) (writtenText (Text.ofChars chars)) := by
  refine ⟨⟨'"', _, rfl, rfl, by decide⟩, ?_⟩
  intro steps rest enough ends
  rw [writtenText, List.cons_append, List.length_cons] at enough
  obtain ⟨steps, rfl⟩ := Nat.exists_eq_add_of_le' (show 1 ≤ steps by omega)
  have shape : Text.ofChars (writtenText (Text.ofChars chars)) ++ rest =
      .scalar '"' :: (Text.ofChars ((Text.ofChars chars).flatMap writtenPoint) ++
        .scalar '"' :: rest) := by
    simp [writtenText, Text.ofChars]
  rw [shape, value, string_written]
  rfl

theorem ofChars_enclosed (first last : Char) (chars : List Char) (rest : Text) :
    Text.ofChars (first :: chars ++ [last]) ++ rest =
      .scalar first :: (Text.ofChars chars ++ .scalar last :: rest) := by
  simp [Text.ofChars]

theorem readsBack_list {data : List Data} {pieces : List (List Char)}
    (each : List.Forall₂ ReadsBack data pieces) :
    ReadsBack (.list data) ('[' :: commas pieces ++ [']']) := by
  refine ⟨⟨'[', _, rfl, rfl, by decide⟩, ?_⟩
  intro steps rest enough ends
  rw [List.length_append, List.length_cons, List.length_singleton] at enough
  obtain ⟨steps, rfl⟩ := Nat.exists_eq_add_of_le' (show 1 ≤ steps by omega)
  rw [ofChars_enclosed]
  cases each with
  | nil => rfl
  | @cons item piece data pieces back others =>
    obtain ⟨head, tail, rfl, dark, noClose⟩ := back.starts
    obtain ⟨more, shape⟩ := commas_begins pieces head tail
    have read : items steps [] (Text.ofChars (commas ((head :: tail) :: pieces)) ++
        .scalar ']' :: rest) = .ok (.list (item :: data), rest) :=
      items_commas (.cons back others) (List.cons_ne_nil _ _) (by omega) []
    rw [shape] at read ⊢
    exact (value_items dark noClose).trans read

theorem readsBack_table {found : List (Text × Data)} {pieces : List (List Char)}
    (distinct : (found.map Prod.fst).Nodup)
    (each : List.Forall₂ EntryReadsBack found pieces) :
    ReadsBack (.table found) ('{' :: commas pieces ++ ['}']) := by
  refine ⟨⟨'{', _, rfl, rfl, by decide⟩, ?_⟩
  intro steps rest enough ends
  rw [List.length_append, List.length_cons, List.length_singleton] at enough
  obtain ⟨steps, rfl⟩ := Nat.exists_eq_add_of_le' (show 1 ≤ steps by omega)
  rw [ofChars_enclosed]
  cases each with
  | nil => rfl
  | @cons entry piece found pieces back others =>
    have read : entries steps [] (Text.ofChars (commas (piece :: pieces)) ++ .scalar '}' :: rest) =
        .ok (Data.tableOf (entry :: found), rest) :=
      entries_commas (.cons back others) (List.cons_ne_nil _ _) (by omega) []
    rw [tableOf_of_nodup distinct] at read
    obtain ⟨name, chars, -, rfl, -⟩ := back
    obtain ⟨more, shape⟩ := commas_begins pieces '"' _
    rw [writtenText, List.cons_append, List.cons_append, shape] at read ⊢
    exact value_entries.trans read

/-- The compact form of a value is read back as the value. -/
theorem IsValue.readsBack {data : Data} (json : IsValue data) {chars : List Char}
    (form : written data = .ok chars) : ReadsBack data chars := by
  induction json generalizing chars with
  | null =>
    cases form
    exact readsBack_plain (by decide) fun _ _ => .inl rfl
  | boolean value =>
    cases form
    cases value <;> exact readsBack_plain (by decide) fun _ _ => .inl rfl
  | integer short =>
    cases form
    exact readsBack_integer short
  | text content =>
    cases form
    exact readsBack_text content
  | list values ih =>
    obtain ⟨pieces, each, rfl⟩ := written_list_eq_ok_iff.mp form
    have back := (List.forall₂_and_left _ _).mpr ⟨ih, each⟩
    exact readsBack_list (back.imp fun _ _ ⟨read, form⟩ => read form)
  | table distinct keys values ih =>
    obtain ⟨pieces, each, rfl⟩ := written_table_eq_ok_iff.mp form
    have back := (List.forall₂_and_left _ _).mpr
      ⟨keys, (List.forall₂_and_left _ _).mpr ⟨ih, each⟩⟩
    refine readsBack_table distinct (back.imp ?_)
    intro entry piece ⟨⟨name, key⟩, read, form⟩
    obtain ⟨chars, value, shape⟩ := writtenEntry_eq_ok_iff.mp form
    exact ⟨name, chars, key, shape.symm, read value⟩

theorem whole_written {data : Data} (json : IsValue data) {chars : List Char}
    (form : written data = .ok chars) : whole (Text.ofChars chars) = .ok data := by
  have back := json.readsBack form
  have dark : skipSpaces (Text.ofChars chars) = Text.ofChars chars := by
    rw [← List.append_nil (Text.ofChars chars)]
    exact skipSpaces_written back
  have read : value (2 * (Text.ofChars chars).length + 1) (Text.ofChars chars ++ []) =
      .ok (data, []) := by
    refine back.read ?_ (by simp [EndsNumber])
    rw [Text.ofChars, List.length_map]
    exact Nat.le_succ _
  rw [List.append_nil] at read
  rw [whole, dark, read]
  rfl

end ProtocolGen.Json
