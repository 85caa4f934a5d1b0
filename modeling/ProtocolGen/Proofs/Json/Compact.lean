import ProtocolGen.Json.Reader
import ProtocolGen.Json.Writer
import ProtocolGen.Proofs.Sequencing

/-!
# The compact form of JSON values

The values that JSON has, and what their compact forms are made of: characters of ASCII, of which
those outside string literals are not blank.
-/

set_option autoImplicit false

namespace ProtocolGen.Json

/-- The values of JSON. An integer has no more digits than a reader takes, a text is made of
characters, and no table has two entries with one key. -/
inductive IsValue : Data → Prop where
  | null : IsValue .null
  | boolean (value : Bool) : IsValue (.boolean value)
  | integer {value : Int} (short : (Nat.toDigits 10 value.natAbs).length ≤ maximumDigits) :
      IsValue (.integer value)
  | text (chars : List Char) : IsValue (.text (Text.ofChars chars))
  | list {items : List Data} (values : ∀ item ∈ items, IsValue item) : IsValue (.list items)
  | table {entries : List (Text × Data)} (distinct : (entries.map Prod.fst).Nodup)
      (keys : ∀ entry ∈ entries, ∃ chars, entry.1 = Text.ofChars chars)
      (values : ∀ entry ∈ entries, IsValue entry.2) : IsValue (.table entries)

/-! ## Every value is written -/

theorem writtenItems_eq_mapM (items : List Data) : writtenItems items = items.mapM written := by
  induction items with
  | nil => rfl
  | cons item items ih =>
    rw [List.mapM_cons, ← ih]
    rfl

theorem writtenEntries_eq_mapM (entries : List (Text × Data)) :
    writtenEntries entries = entries.mapM writtenEntry := by
  induction entries with
  | nil => rfl
  | cons entry entries ih =>
    rw [List.mapM_cons, ← ih]
    rfl

theorem written_list {items : List Data} : written (.list items) =
    (writtenItems items).map fun pieces => '[' :: commas pieces ++ [']'] := rfl

theorem written_table {entries : List (Text × Data)} : written (.table entries) =
    (writtenEntries entries).map fun pieces => '{' :: commas pieces ++ ['}'] := rfl

theorem written_list_eq_ok_iff {items : List Data} {chars : List Char} :
    written (.list items) = .ok chars ↔
      ∃ pieces, List.Forall₂ (fun item piece => written item = .ok piece) items pieces ∧
        '[' :: commas pieces ++ [']'] = chars := by
  simp only [written_list, map_eq_ok_iff, writtenItems_eq_mapM, mapM_eq_ok_iff]

theorem written_table_eq_ok_iff {entries : List (Text × Data)} {chars : List Char} :
    written (.table entries) = .ok chars ↔
      ∃ pieces, List.Forall₂ (fun entry piece => writtenEntry entry = .ok piece) entries pieces ∧
        '{' :: commas pieces ++ ['}'] = chars := by
  simp only [written_table, map_eq_ok_iff, writtenEntries_eq_mapM, mapM_eq_ok_iff]

theorem writtenEntry_eq_ok_iff {entry : Text × Data} {piece : List Char} :
    writtenEntry entry = .ok piece ↔
      ∃ chars, written entry.2 = .ok chars ∧ writtenText entry.1 ++ ':' :: chars = piece := by
  obtain ⟨key, data⟩ := entry
  exact map_eq_ok_iff

theorem IsValue.exists_written {data : Data} (json : IsValue data) :
    ∃ chars, written data = .ok chars := by
  induction json with
  | null | boolean | integer | text => exact ⟨_, rfl⟩
  | list values ih =>
    obtain ⟨pieces, each⟩ := exists_mapM_eq_ok_iff.mpr ih
    exact ⟨_, written_list_eq_ok_iff.mpr ⟨pieces, mapM_eq_ok_iff.mp each, rfl⟩⟩
  | @table entries distinct keys values ih =>
    have ih : ∀ entry ∈ entries, ∃ piece, writtenEntry entry = .ok piece := by
      intro entry member
      obtain ⟨chars, found⟩ := ih entry member
      exact ⟨_, writtenEntry_eq_ok_iff.mpr ⟨chars, found, rfl⟩⟩
    obtain ⟨pieces, each⟩ := exists_mapM_eq_ok_iff.mpr ih
    exact ⟨_, written_table_eq_ok_iff.mpr ⟨pieces, mapM_eq_ok_iff.mp each, rfl⟩⟩

/-! ## Characters outside string literals -/

/-- The characters of a JSON text that stand outside its string literals and are not their quotes.
A backslash in a literal takes the next character with it. -/
def outsideLiterals : Bool → List Char → List Char
  | _, [] => []
  | false, '"' :: rest => outsideLiterals true rest
  | false, char :: rest => char :: outsideLiterals false rest
  | true, '"' :: rest => outsideLiterals false rest
  | true, '\\' :: _ :: rest => outsideLiterals true rest
  | true, _ :: rest => outsideLiterals true rest

def isBlank (char : Char) : Bool := isSpace (.scalar char)

/-- A run of ASCII characters that leaves no literal open and has no blank outside one. -/
structure IsCompact (chars : List Char) : Prop where
  ascii : ∀ char ∈ chars, 0 < char.toNat ∧ char.toNat < 0x80
  tight : ∃ visible : List Char, (∀ char ∈ visible, !isBlank char) ∧
    ∀ rest, outsideLiterals false (chars ++ rest) = visible ++ outsideLiterals false rest

namespace IsCompact

variable {chars others : List Char}

theorem nil : IsCompact [] := ⟨by simp, [], by simp⟩

theorem append (first : IsCompact chars) (second : IsCompact others) :
    IsCompact (chars ++ others) := by
  obtain ⟨ascii, visible, dark, read⟩ := first
  obtain ⟨otherAscii, otherVisible, otherDark, otherRead⟩ := second
  refine ⟨List.forall_mem_append.mpr ⟨ascii, otherAscii⟩, visible ++ otherVisible,
    List.forall_mem_append.mpr ⟨dark, otherDark⟩, ?_⟩
  intro rest
  rw [List.append_assoc, read, otherRead, List.append_assoc]

/-- A visible character of ASCII, unless it opens a literal. -/
theorem single {char : Char} (plain : 0x20 < char.toNat ∧ char.toNat < 0x80 ∧ char ≠ '"') :
    IsCompact [char] := by
  obtain ⟨dark, ascii, noQuote⟩ := plain
  refine ⟨by simp; omega, [char], ?_, ?_⟩
  · have blank : ∀ space : Char, space.toNat ≤ 0x20 → char ≠ space := by
      intro space low same
      rw [same] at dark
      omega
    simp [isBlank, isSpace, blank]
  · intro rest
    simp [outsideLiterals]

theorem word
    (each : ∀ char ∈ chars, 0x20 < char.toNat ∧ char.toNat < 0x80 ∧ char ≠ '"') :
    IsCompact chars := by
  induction chars with
  | nil => exact nil
  | cons char chars ih =>
    rw [List.forall_mem_cons] at each
    exact (single each.1).append (ih each.2)

theorem commas {pieces : List (List Char)} (each : ∀ piece ∈ pieces, IsCompact piece) :
    IsCompact (commas pieces) := by
  fun_induction Json.commas pieces with
  | case1 => exact nil
  | case2 piece => exact each piece List.mem_cons_self
  | case3 piece pieces _ ih =>
    rw [List.forall_mem_cons] at each
    have comma : IsCompact [','] := single (by decide)
    exact each.1.append (comma.append (ih each.2))

/-- The characters outside literals are visible. -/
theorem notBlank (compact : IsCompact chars) :
    ∀ char ∈ outsideLiterals false chars, !isBlank char := by
  obtain ⟨-, visible, dark, read⟩ := compact
  have read := read []
  rw [List.append_nil, outsideLiterals, List.append_nil] at read
  rwa [read]

end IsCompact

/-! ## Strings -/

/-- Characters of ASCII that, inside a literal, stay there. -/
structure IsInside (chars : List Char) : Prop where
  ascii : ∀ char ∈ chars, 0 < char.toNat ∧ char.toNat < 0x80
  kept : ∀ rest, outsideLiterals true (chars ++ rest) = outsideLiterals true rest

namespace IsInside

variable {chars others : List Char}

theorem nil : IsInside [] := ⟨by simp, by simp⟩

theorem append (first : IsInside chars) (second : IsInside others) :
    IsInside (chars ++ others) := by
  refine ⟨List.forall_mem_append.mpr ⟨first.ascii, second.ascii⟩, ?_⟩
  intro rest
  rw [List.append_assoc, first.kept, second.kept]

theorem flatMap {Source : Type} {written : Source → List Char} {sources : List Source}
    (each : ∀ source ∈ sources, IsInside (written source)) :
    IsInside (sources.flatMap written) := by
  induction sources with
  | nil => exact nil
  | cons source sources ih =>
    rw [List.forall_mem_cons] at each
    rw [List.flatMap_cons]
    exact each.1.append (ih each.2)

theorem single {char : Char} (positive : 0 < char.toNat) (ascii : char.toNat < 0x80)
    (noQuote : char ≠ '"') (noBackslash : char ≠ '\\') : IsInside [char] := by
  refine ⟨by simp [positive, ascii], ?_⟩
  intro rest
  simp [outsideLiterals, noBackslash]

theorem escape {letter : Char} (positive : 0 < letter.toNat) (ascii : letter.toNat < 0x80) :
    IsInside ['\\', letter] :=
  ⟨by simp [positive, ascii], fun _ => rfl⟩

theorem quoted (inside : IsInside chars) : IsCompact ('"' :: chars ++ ['"']) := by
  refine ⟨?_, [], by simp, ?_⟩
  · simpa [or_imp, forall_and] using inside.ascii
  · intro rest
    simp [outsideLiterals, inside.kept]

end IsInside

theorem isInside_hexDigit (digit : Nat) (small : digit < 16) : IsInside [Text.hexDigit digit] := by
  have plain : ∀ digit : Fin 16, 0 < (Text.hexDigit digit).toNat ∧
      (Text.hexDigit digit).toNat < 0x80 ∧ Text.hexDigit digit ≠ '"' ∧
        Text.hexDigit digit ≠ '\\' := by decide
  obtain ⟨positive, ascii, noQuote, noBackslash⟩ := plain ⟨digit, small⟩
  exact .single positive ascii noQuote noBackslash

theorem isInside_hexDigits (count number : Nat) : IsInside (Text.hexDigits count number) := by
  induction count generalizing number with
  | zero => exact .nil
  | succ count ih => exact (ih _).append (isInside_hexDigit _ (Nat.mod_lt _ (by decide)))

theorem isInside_unitEscape (unit : Nat) : IsInside (unitEscape unit) :=
  (IsInside.escape (by decide) (by decide)).append (isInside_hexDigits 4 unit)

theorem isInside_writtenPoint (point : CodePoint) : IsInside (writtenPoint point) := by
  fun_cases writtenPoint point
  case case8 char noQuote noBackslash _ _ _ _ _ printable =>
    rw [Bool.and_eq_true, decide_eq_true_eq, decide_eq_true_eq] at printable
    obtain ⟨low, high⟩ := printable
    exact .single (by omega) (by omega) noQuote noBackslash
  case case9 => exact isInside_unitEscape _
  case case10 => exact (isInside_unitEscape _).append (isInside_unitEscape _)
  case case11 => exact isInside_unitEscape _
  all_goals exact .escape (by decide) (by decide)

theorem isCompact_writtenText (text : Text) : IsCompact (writtenText text) :=
  (IsInside.flatMap fun point _ => isInside_writtenPoint point).quoted

/-! ## Values -/

theorem isCompact_toDigits (number : Nat) : IsCompact (Nat.toDigits 10 number) := by
  apply IsCompact.word
  intro char member
  have digit := Nat.isDigit_of_mem_toDigits (by decide) (by decide) member
  simp only [Char.isDigit_iff_toNat, Char.reduceToNat] at digit
  refine ⟨by omega, by omega, ?_⟩
  rintro rfl
  revert digit
  decide

theorem isCompact_writtenInteger (number : Int) : IsCompact (writtenInteger number) := by
  rw [writtenInteger]
  split
  · have sign : IsCompact ['-'] := .single (by decide)
    exact sign.append (isCompact_toDigits _)
  · exact isCompact_toDigits _

theorem IsCompact.enclosed {first last : Char} {pieces : List (List Char)}
    (opens : IsCompact [first]) (each : ∀ piece ∈ pieces, IsCompact piece)
    (closes : IsCompact [last]) : IsCompact (first :: Json.commas pieces ++ [last]) :=
  (opens.append (IsCompact.commas each)).append closes

/-- The compact form of a value is ASCII and has no blank outside its string literals. -/
theorem IsValue.isCompact {data : Data} (json : IsValue data) {chars : List Char}
    (form : written data = .ok chars) : IsCompact chars := by
  have colon : IsCompact [':'] := .single (by decide)
  induction json generalizing chars with
  | null =>
    cases form
    exact .word (by decide)
  | boolean value =>
    cases form
    cases value <;> exact .word (by decide)
  | integer short =>
    cases form
    exact isCompact_writtenInteger _
  | text content =>
    cases form
    exact isCompact_writtenText _
  | list values ih =>
    obtain ⟨pieces, each, rfl⟩ := written_list_eq_ok_iff.mp form
    refine .enclosed (.single (by decide)) ?_ (.single (by decide))
    intro piece member
    obtain ⟨item, inside, found⟩ := exists_left_of_mem each member
    exact ih item inside found
  | table distinct keys values ih =>
    obtain ⟨pieces, each, rfl⟩ := written_table_eq_ok_iff.mp form
    refine .enclosed (.single (by decide)) ?_ (.single (by decide))
    intro piece member
    obtain ⟨entry, inside, found⟩ := exists_left_of_mem each member
    obtain ⟨chars, value, rfl⟩ := writtenEntry_eq_ok_iff.mp found
    exact (isCompact_writtenText entry.1).append (colon.append (ih entry inside value))

end ProtocolGen.Json
