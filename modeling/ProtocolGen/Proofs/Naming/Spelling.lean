import ProtocolGen.Proofs.Naming.Identifiers

/-!
# Names that meet

The name of a class or of a registry's member is made of a spelling: letters and digits, of which the
first is no small letter. The spelling can be read back from the name, so two names are equal exactly
when their spellings are. But a spelling is put together of two parts, or has an ending, and where its
parts meet cannot be read back.
-/

set_option autoImplicit false

namespace ProtocolGen.Naming

open ProtocolGen.Text

/-! ## Spellings -/

/-- Letters and digits that do not begin with a small letter. -/
structure IsSpelling (text : List Char) : Prop where
  words : ∀ char ∈ text, isWordChar char
  begins : ∀ char ∈ text.head?, ¬ char.isLower

instance (text : List Char) : Decidable (IsSpelling text) :=
  decidable_of_iff ((∀ char ∈ text, isWordChar char) ∧ ∀ char ∈ text.head?, ¬ char.isLower)
    ⟨fun ⟨words, begins⟩ => ⟨words, begins⟩, fun ⟨words, begins⟩ => ⟨words, begins⟩⟩

theorem isUpper_upperAscii {char : Char} (lower : char.isLower) : (upperAscii char).isUpper := by
  have letters : ∀ number < 26, (Char.ofNat (number + 65)).isUpper := by decide
  obtain ⟨number, range, -, capital⟩ := exists_upperAscii_eq lower
  rw [capital]
  exact letters number range

theorem not_isLower_of_isUpper {char : Char} (upper : char.isUpper) : ¬ char.isLower := by
  intro lower
  exact absurd (Nat.le_trans (isLower_iff.mp lower).1 (isUpper_iff.mp upper).2) (by decide)

theorem isWordChar_upperAscii {char : Char} (word : isWordChar char) :
    isWordChar (upperAscii char) := by
  by_cases lower : char.isLower
  · exact isAlphanum_iff.mpr (.inl (isAlpha_iff.mpr (.inl (isUpper_upperAscii lower))))
  · rwa [upperAscii_of_not_isLower lower]

theorem not_isLower_upperAscii (char : Char) : ¬ (upperAscii char).isLower := by
  by_cases lower : char.isLower
  · exact not_isLower_of_isUpper (isUpper_upperAscii lower)
  · rwa [upperAscii_of_not_isLower lower]

theorem isWordChar_of_mem_pascalFrom {atStart : Bool} {char : Char} {text : List Char}
    (member : char ∈ pascalFrom atStart text) : isWordChar char := by
  fun_induction pascalFrom atStart text with
  | case1 => cases member
  | case2 atStart first rest word ih =>
    rcases List.mem_cons.mp member with rfl | later
    · split
      · exact isWordChar_upperAscii word
      · exact word
    · exact ih later
  | case3 _ _ _ _ ih => exact ih member

theorem isSpelling_pascalChars (text : List Char) : IsSpelling (pascalChars text) := by
  refine ⟨fun char member => isWordChar_of_mem_pascalFrom member, ?_⟩
  rw [pascalChars]
  induction text with
  | nil => exact fun _ none => nomatch none
  | cons first rest ih =>
    rw [pascalFrom]
    split
    · rintro _ ⟨⟩
      exact not_isLower_upperAscii first
    · exact ih

theorem IsSpelling.append {text more : List Char} (spelling : IsSpelling text)
    (ending : IsSpelling more) : IsSpelling (text ++ more) := by
  refine ⟨fun char member => ?_, ?_⟩
  · exact (List.mem_append.mp member).elim (spelling.words char) (ending.words char)
  · cases text with
    | nil => exact ending.begins
    | cons first rest => exact spelling.begins

/-! ## Reading names back -/

/-- The text that stands for a spelling, which may be empty. -/
def orValue (spelling : List Char) : List Char :=
  if spelling.isEmpty then "value".toList else spelling

/-- The letters and digits of a name. -/
def readBack (name : List Char) : List Char := name.filter isWordChar

theorem readBack_append (name more : List Char) :
    readBack (name ++ more) = readBack name ++ readBack more :=
  List.filter_append _ _

theorem readBack_of_words {text : List Char} (words : ∀ char ∈ text, isWordChar char) :
    readBack text = text :=
  List.filter_eq_self.mpr words

theorem readBack_guardDigit (name : List Char) : readBack (guardDigit name) = readBack name :=
  read_guardDigit (fun _ => List.filter_cons_of_neg (by decide)) name

theorem readBack_concat_lowLine (name : List Char) : readBack (name ++ ['_']) = readBack name := by
  rw [readBack_append]
  exact List.append_nil _

theorem readBack_guardAmong (names : List String) (name : List Char) :
    readBack (guardAmong names name) = readBack name :=
  read_guardAmong readBack_concat_lowLine names name

theorem collapseLowLines_of_words {text : List Char} (words : ∀ char ∈ text, isWordChar char) :
    collapseLowLines text = text := by
  fun_induction collapseLowLines text with
  | case1 => exact absurd (words '_' List.mem_cons_self) (by decide)
  | case2 _ _ _ ih => rw [ih (List.forall_mem_cons.mp words).2]
  | case3 => rfl

theorem stripLowLines_of_words {text : List Char} (words : ∀ char ∈ text, isWordChar char) :
    stripLowLines text = text := by
  have other {char : Char} (word : isWordChar char) : ¬ (char == '_') := by
    rw [beq_iff_eq]
    rintro rfl
    exact absurd word (by decide)
  have kept {list : List Char} (words : ∀ char ∈ list, isWordChar char) :
      list.dropWhile (· == '_') = list := by
    cases list with
    | nil => rfl
    | cons first rest => exact List.dropWhile_cons_of_neg (other (words first List.mem_cons_self))
  rw [stripLowLines, kept words, dropEndWhile,
    kept fun char member => words char (List.mem_reverse.mp member), List.reverse_reverse]

/-- Nothing of a text of letters, digits and low lines is replaced in its identifier. -/
theorem safeChars_of_names {text : List Char} (names : ∀ char ∈ text, isNameChar char) :
    safeChars text =
      guardReserved (guardDigit (orValue (stripLowLines (collapseLowLines text)))) := by
  have clean : text.map (fun char => if isNameChar char then char else '_') = text :=
    (List.map_congr_left fun char member => if_pos (names char member)).trans (List.map_id' text)
  rw [safeChars, clean]
  rfl

theorem safeChars_of_words {text : List Char} (words : ∀ char ∈ text, isWordChar char) :
    safeChars text = guardReserved (guardDigit (orValue text)) := by
  have names (char : Char) (member : char ∈ text) : isNameChar char := by
    rw [isNameChar, show char.isAlphanum from words char member, Bool.true_or]
  rw [safeChars_of_names names, collapseLowLines_of_words words, stripLowLines_of_words words]

theorem readBack_safeChars_of_words {text : List Char} (words : ∀ char ∈ text, isWordChar char) :
    readBack (safeChars text) = orValue text := by
  rw [safeChars_of_words words, guardReserved_eq, readBack_guardAmong, readBack_guardDigit]
  refine readBack_of_words ?_
  unfold orValue
  split
  · decide
  · exact words

/-- Domains of one word each share a module exactly where they are spelled alike in small letters. -/
theorem moduleName_inj_of_words {domain other : String}
    (words : ∀ char ∈ snakeChars domain.toList, isWordChar char)
    (otherWords : ∀ char ∈ snakeChars other.toList, isWordChar char) :
    moduleName domain = moduleName other ↔
      orValue (snakeChars domain.toList) = orValue (snakeChars other.toList) := by
  refine ⟨fun same => ?_, fun same => ?_⟩
  · have read := congrArg (fun name : String => readBack name.toList) same
    simpa only [moduleName, String.toList_ofList, readBack_guardAmong,
      readBack_safeChars_of_words words, readBack_safeChars_of_words otherWords] using read
  · rw [moduleName, moduleName, safeChars_of_words words, safeChars_of_words otherWords, same]

namespace IsSpelling

variable {text other : List Char} (spelling : IsSpelling text)

include spelling

theorem readBack_safeChars : readBack (safeChars text) = orValue text :=
  readBack_safeChars_of_words spelling.words

/-- No spelling is the word that stands for the empty one, or begins with it. -/
theorem ne_value_append (more : List Char) : text ≠ "value".toList ++ more := by
  rintro rfl
  exact spelling.begins 'v' rfl (by decide)

theorem orValue_inj (otherSpelling : IsSpelling other) : orValue text = orValue other ↔ text = other := by
  refine ⟨fun same => ?_, fun same => by rw [same]⟩
  unfold orValue at same
  split at same
  · next empty =>
    split at same
    · next otherEmpty => rw [List.isEmpty_iff.mp empty, List.isEmpty_iff.mp otherEmpty]
    · exact absurd same.symm (otherSpelling.ne_value_append [])
  · split at same
    · exact absurd same (spelling.ne_value_append [])
    · exact same

theorem safeChars_inj (otherSpelling : IsSpelling other) :
    safeChars text = safeChars other ↔ text = other := by
  refine ⟨fun same => ?_, fun same => by rw [same]⟩
  have read := congrArg readBack same
  rwa [spelling.readBack_safeChars, otherSpelling.readBack_safeChars,
    spelling.orValue_inj otherSpelling] at read

end IsSpelling

/-! ## Members of registries and their classes -/

section Members

variable {domain name other otherName : String}

theorem toList_pascal (text : String) : (pascal text).toList = pascalChars text.toList :=
  String.toList_ofList

theorem isSpelling_pascal (domain name : String) :
    IsSpelling (pascal domain ++ pascal name).toList := by
  rw [String.toList_append, toList_pascal, toList_pascal]
  exact (isSpelling_pascalChars _).append (isSpelling_pascalChars _)

theorem memberName_inj : memberName domain name = memberName other otherName ↔
    pascal domain ++ pascal name = pascal other ++ pascal otherName := by
  rw [memberName, memberName, safeIdentifier, safeIdentifier, String.ofList_inj,
    (isSpelling_pascal domain name).safeChars_inj (isSpelling_pascal other otherName),
    String.toList_inj]

theorem argsName_inj : argsName domain name = argsName other otherName ↔
    pascal domain ++ pascal name = pascal other ++ pascal otherName := by
  rw [argsName, argsName, String.append_left_inj, memberName_inj]

theorem replyName_inj : replyName domain name = replyName other otherName ↔
    pascal domain ++ pascal name = pascal other ++ pascal otherName := by
  rw [replyName, replyName, String.append_left_inj, memberName_inj]

theorem eventClientName_inj : eventClientName domain name = eventClientName other otherName ↔
    pascal domain ++ pascal name = pascal other ++ pascal otherName := by
  rw [eventClientName, eventClientName, String.append_left_inj, memberName_inj]

end Members

/-! ## Classes of domains -/

/-- The characters of the class of a domain with some spelling. -/
def classChars (spelling : List Char) : List Char := guardAmong reservedClasses (safeChars spelling)

/-- The spellings whose class is not just the spelling, behind a low line where it has to be. -/
def guardedSpellings : List String := ["", "False", "None", "True", "Client"]

def ending : List Char := "Domain".toList

theorem toList_append_domain (name : String) : (name ++ "Domain").toList = name.toList ++ ending :=
  String.toList_append

theorem isSpelling_ending : IsSpelling ending := by decide

theorem guardDigit_append {text : List Char} (notEmpty : text ≠ []) (more : List Char) :
    guardDigit (text ++ more) = guardDigit text ++ more := by
  obtain ⟨first, rest, rfl⟩ := List.exists_cons_of_ne_nil notEmpty
  rw [List.cons_append, guardDigit, guardDigit]
  split <;> rfl

theorem append_ending_not_mem_guardedSpellings (text : List Char) :
    text ++ ending ∉ guardedSpellings.map String.toList := by
  have lasts : ∀ spelling ∈ guardedSpellings.map String.toList, spelling.getLast? ≠ some 'n' := by
    decide
  intro guarded
  refine lasts _ guarded ?_
  rw [List.getLast?_append]
  rfl

theorem toList_domainClass (domain : String) :
    (domainClass domain).toList = classChars (pascalChars domain.toList) := by
  rw [domainClass, String.toList_ofList, classChars]

namespace IsSpelling

variable {text other : List Char} (spelling : IsSpelling text)

include spelling

theorem readBack_classChars : readBack (classChars text) = orValue text := by
  rw [classChars, readBack_guardAmong, spelling.readBack_safeChars]

theorem classChars_inj (otherSpelling : IsSpelling other) :
    classChars text = classChars other ↔ text = other := by
  refine ⟨fun same => ?_, fun same => by rw [same]⟩
  have read := congrArg readBack same
  rwa [spelling.readBack_classChars, otherSpelling.readBack_classChars,
    spelling.orValue_inj otherSpelling] at read

/-- What is guarded is none of the other spellings: it begins with a small letter, or is listed. -/
theorem guardDigit_ne {known : String} (plain : text ∉ guardedSpellings.map String.toList)
    (guarded : known ∈ keywords ++ reservedNames ++ reservedClasses) :
    guardDigit text ≠ known.toList := by
  have begins : ∀ known ∈ keywords ++ reservedNames ++ reservedClasses,
      known.toList.head? ≠ some '_' ∧
        (known.toList ∈ guardedSpellings.map String.toList ∨
          known.toList.head?.any Char.isLower) := by decide
  obtain ⟨notLowLine, known⟩ := begins known guarded
  intro same
  rw [← same] at notLowLine known
  unfold guardDigit at notLowLine known
  split at notLowLine
  · next first rest =>
    split at notLowLine
    · exact notLowLine rfl
    · next letter =>
      dsimp only at known
      rw [if_neg letter] at known
      rcases known with listed | lower
      · exact plain listed
      · exact spelling.begins first rfl (by simpa using lower)
  · exact plain (by decide)

theorem isAmong_guardDigit {names : List String} (plain : text ∉ guardedSpellings.map String.toList)
    (guarded : names ⊆ keywords ++ reservedNames ++ reservedClasses) :
    isAmong names (guardDigit text) = false := by
  rw [isAmong, List.any_eq_false]
  intro known member same
  exact spelling.guardDigit_ne plain (guarded member) (beq_iff_eq.mp same).symm

theorem safeChars_of_plain (plain : text ∉ guardedSpellings.map String.toList) :
    safeChars text = guardDigit text := by
  have notEmpty : ¬ text.isEmpty := by
    rw [List.isEmpty_iff]
    rintro rfl
    exact plain (by decide)
  have keyword : isKeyword (guardDigit text) = false := spelling.isAmong_guardDigit plain (by simp)
  rw [safeChars_of_words spelling.words, orValue, if_neg notEmpty, guardReserved, keyword,
    spelling.isAmong_guardDigit plain (by simp), Bool.or_false, if_neg (by decide)]

theorem classChars_of_plain (plain : text ∉ guardedSpellings.map String.toList) :
    classChars text = guardDigit text := by
  rw [classChars, spelling.safeChars_of_plain plain, guardAmong,
    spelling.isAmong_guardDigit plain (by simp), if_neg (by decide)]

/-- A class with the ending is the class of another domain exactly when that one is spelled with the
ending and nothing is put between the spelling and the ending. -/
theorem classChars_append_ending_iff (otherSpelling : IsSpelling other) :
    classChars text ++ ending = classChars other ↔
      text ++ ending = other ∧ text ∉ guardedSpellings.map String.toList := by
  constructor
  · intro same
    have read := congrArg readBack same
    rw [readBack_append, spelling.readBack_classChars, otherSpelling.readBack_classChars,
      readBack_of_words isSpelling_ending.words] at read
    have notEmpty : ¬ other.isEmpty := by
      intro empty
      have lengths := congrArg List.length read
      have short : (orValue []).length < ending.length := by decide
      rw [List.isEmpty_iff.mp empty, List.length_append] at lengths
      omega
    rw [orValue, orValue, if_neg notEmpty] at read
    split at read
    · exact absurd read.symm (otherSpelling.ne_value_append ending)
    · refine ⟨read, fun guarded => ?_⟩
      subst read
      have apart : ∀ guarded ∈ guardedSpellings.map String.toList,
          guarded.isEmpty ∨ classChars guarded ++ ending ≠ classChars (guarded ++ ending) := by
        decide
      rcases apart text guarded with empty | differ
      · contradiction
      · exact differ same
  · rintro ⟨rfl, plain⟩
    have notEmpty : text ≠ [] := by
      rintro rfl
      exact plain (by decide)
    rw [spelling.classChars_of_plain plain,
      otherSpelling.classChars_of_plain (append_ending_not_mem_guardedSpellings text),
      guardDigit_append notEmpty]

end IsSpelling

section Classes

variable {domain other : String}

theorem toList_mem_map_toList_iff {text : String} {names : List String} :
    text.toList ∈ names.map String.toList ↔ text ∈ names := by
  simp [String.toList_inj]

theorem domainClass_inj : domainClass domain = domainClass other ↔ pascal domain = pascal other := by
  rw [← String.toList_inj, toList_domainClass, toList_domainClass,
    (isSpelling_pascalChars _).classChars_inj (isSpelling_pascalChars _), pascal, pascal,
    String.ofList_inj]

theorem domainClass_append_eq_iff : domainClass domain ++ "Domain" = domainClass other ↔
    pascal domain ++ "Domain" = pascal other ∧ pascal domain ∉ guardedSpellings := by
  have guarded : pascalChars domain.toList ∈ guardedSpellings.map String.toList ↔
      pascal domain ∈ guardedSpellings := by
    rw [← toList_pascal, toList_mem_map_toList_iff]
  have spelled : pascalChars domain.toList ++ ending = pascalChars other.toList ↔
      pascal domain ++ "Domain" = pascal other := by
    rw [← String.toList_inj, toList_append_domain, toList_pascal, toList_pascal]
  rw [← String.toList_inj, toList_append_domain, toList_domainClass, toList_domainClass,
    (isSpelling_pascalChars _).classChars_append_ending_iff (isSpelling_pascalChars _), spelled,
    guarded]

/-- A domain has a class of some name that stays as it is exactly when it is spelled so. -/
theorem domainClass_eq_iff {known : String} (spelling : IsSpelling known.toList)
    (plain : classChars known.toList = known.toList) :
    domainClass domain = known ↔ pascal domain = known := by
  rw [← String.toList_inj, ← String.toList_inj, toList_domainClass, toList_pascal, ← plain,
    (isSpelling_pascalChars _).classChars_inj spelling, plain]

theorem safeIdentifier_of_plain {spelling : String} (spelled : IsSpelling spelling.toList)
    (plain : spelling ∉ guardedSpellings)
    (stays : guardDigit spelling.toList = spelling.toList) : safeIdentifier spelling = spelling := by
  have notGuarded : spelling.toList ∉ guardedSpellings.map String.toList := by
    rwa [toList_mem_map_toList_iff]
  rw [safeIdentifier, spelled.safeChars_of_plain notGuarded, stays, String.ofList_toList]

/-- No domain's class has the name of the client, nor has the one behind it. -/
theorem domainClass_ne_client (domain : String) :
    domainClass domain ≠ "Client" ∧ domainClass domain ++ "Domain" ≠ "Client" := by
  refine ⟨fun same => ?_, fun same => ?_⟩
  · exact guardAmong_not_mem (by decide) _ (List.mem_singleton.mpr same)
  · have others : ∀ known ∈ ["Client"], ¬ "Domain".toList <:+ known.toList := by decide
    exact append_not_mem others (List.mem_singleton.mpr same)

end Classes

/-! ## Capitals -/

/-- A name with a capital letter. -/
def HasCapital (name : String) : Prop := ∃ char ∈ name.toList, char.isUpper

instance (name : String) : Decidable (HasCapital name) :=
  inferInstanceAs (Decidable (∃ char ∈ name.toList, char.isUpper))

theorem not_isUpper_lowerAscii (char : Char) : ¬ (lowerAscii char).isUpper := by
  have letters : ∀ number < 26, ¬ (Char.ofNat (number + 97)).isUpper := by decide
  by_cases upper : char.isUpper
  · obtain ⟨number, range, -, small⟩ := exists_lowerAscii_eq upper
    rw [small]
    exact letters number range
  · rwa [lowerAscii_of_not_isUpper upper]

theorem mem_safeChars {char : Char} {text : List Char} (member : char ∈ safeChars text) :
    char = '_' ∨ char ∈ "value".toList ∨ char ∈ text := by
  unfold safeChars at member
  dsimp only at member
  rcases mem_guards member with lowLine | inside
  · exact .inl lowLine
  · split at inside
    · exact .inr (.inl inside)
    · obtain ⟨original, inText, same⟩ :=
        List.mem_map.mp (mem_collapseLowLines (mem_stripLowLines inside))
      split at same
      · exact .inr (.inr (same ▸ inText))
      · exact .inl same.symm

theorem not_isUpper_of_mem_snakeChars {char : Char} {text : List Char}
    (member : char ∈ snakeChars text) : ¬ char.isUpper := by
  obtain ⟨original, -, rfl⟩ := List.mem_map.mp member
  exact not_isUpper_lowerAscii original

theorem not_isUpper_of_mem_safeChars {char : Char} {text : List Char}
    (member : char ∈ safeChars (snakeChars text)) : ¬ char.isUpper := by
  have value : ∀ char ∈ "value".toList, ¬ char.isUpper := by decide
  rcases mem_safeChars member with rfl | inValue | inSnake
  · decide
  · exact value char inValue
  · exact not_isUpper_of_mem_snakeChars inSnake

theorem not_hasCapital_moduleName (domain : String) : ¬ HasCapital (moduleName domain) := by
  rintro ⟨char, member, upper⟩
  rw [moduleName, String.toList_ofList] at member
  rcases mem_guardAmong member with rfl | inside
  · exact absurd upper (by decide)
  · exact not_isUpper_of_mem_safeChars inside upper

/-- A spelling that begins with a letter, which is a capital. -/
def BeginsWithLetter (spelling : String) : Prop := spelling.toList.head?.any Char.isAlpha

instance (spelling : String) : Decidable (BeginsWithLetter spelling) :=
  inferInstanceAs (Decidable (spelling.toList.head?.any Char.isAlpha = true))

theorem hasCapital_domainClass {domain : String} (letter : BeginsWithLetter (pascal domain)) :
    HasCapital (domainClass domain) := by
  have spelling := isSpelling_pascalChars domain.toList
  rw [BeginsWithLetter, toList_pascal] at letter
  cases chars : pascalChars domain.toList with
  | nil =>
    rw [chars] at letter
    cases letter
  | cons first rest =>
    rw [chars] at spelling letter
    have upper : first.isUpper := (isAlpha_iff.mp letter).resolve_right (spelling.begins first rfl)
    have read : first ∈ readBack (classChars (first :: rest)) := by
      rw [spelling.readBack_classChars]
      exact List.mem_cons_self
    refine ⟨first, ?_, upper⟩
    rw [toList_domainClass, chars]
    exact (List.mem_filter.mp read).1

end ProtocolGen.Naming
