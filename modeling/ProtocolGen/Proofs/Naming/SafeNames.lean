import ProtocolGen.Proofs.Naming.Words

/-!
# Names that are safe and stable

Every name of generated code is an ASCII identifier that is no keyword and not reserved, whatever the
name it is made of. What guards it is put at its ends, where it is taken off when a name is made of the
name again, so names of names are those names. Classes of names without letters and digits are the
exception: these are named by a word in small letters.
-/

set_option autoImplicit false

namespace ProtocolGen.Naming

open ProtocolGen.Text

/-! ## Safe names -/

/-- An ASCII identifier that may be used as a name in generated code. -/
structure IsSafeName (name : String) : Prop where
  identifier : isIdentifier name.toList
  ascii : ∀ char ∈ name.toList, char.toNat < 0x80
  notKeyword : name ∉ keywords
  notSelf : name ≠ "self"
  notClass : name ≠ "cls"

theorem IsSafeName.of_chars {name : String} (names : ∀ char ∈ name.toList, isNameChar char)
    (begins : BeginsWithoutDigit name.toList) (allowed : name ∉ keywords ++ reservedNames) :
    IsSafeName name where
  identifier := by
    obtain ⟨first, rest, chars, notDigit⟩ := begins
    rw [chars] at names ⊢
    exact isIdentifier_of_isNameChar notDigit names
  ascii char member := toNat_lt_of_isNameChar (names char member)
  notKeyword member := allowed (List.mem_append_left _ member)
  notSelf same := allowed (same ▸ by decide)
  notClass same := allowed (same ▸ by decide)

theorem safeIdentifier_not_mem (text : String) :
    safeIdentifier text ∉ keywords ++ reservedNames := by
  rw [safeIdentifier, safeChars, guardReserved_eq]
  exact guardAmong_not_mem (by decide) _

theorem isSafeName_safeIdentifier (text : String) : IsSafeName (safeIdentifier text) := by
  refine .of_chars (fun _ => isNameChar_of_mem_safeIdentifier) ?_ (safeIdentifier_not_mem text)
  rw [safeIdentifier, String.toList_ofList]
  exact beginsWithoutDigit_safeChars _

/-- A low line at the end makes a name another one than any of those that are not allowed. -/
theorem isSafeName_guardAmong (names : List String) (text : List Char) :
    IsSafeName (String.ofList (guardAmong names (safeChars text))) := by
  have unguarded : ∀ known ∈ keywords ++ reservedNames, known.toList.getLast? ≠ some '_' := by decide
  refine .of_chars (fun char member => ?_) ?_ ?_
  · rw [String.toList_ofList] at member
    exact isNameChar_of_mem_guardAmong member
  · rw [String.toList_ofList]
    exact (beginsWithoutDigit_safeChars text).guardAmong _
  · rcases guardAmong_cases names (safeChars text) with same | guarded
    · have safe := safeIdentifier_not_mem (String.ofList text)
      rwa [safeIdentifier, String.toList_ofList, ← same] at safe
    · rw [guarded]
      intro reserved
      exact unguarded _ reserved (by rw [String.toList_ofList, List.getLast?_concat])

theorem isSafeName_memberName_append {domain name ending : String}
    (names : ∀ char ∈ ending.toList, isNameChar char)
    (others : ∀ known ∈ keywords ++ reservedNames, ¬ ending.toList <:+ known.toList) :
    IsSafeName (memberName domain name ++ ending) := by
  refine .of_chars (isNameChar_of_mem_append (fun _ => isNameChar_of_mem_memberName) names) ?_
    (append_not_mem others)
  rw [String.toList_append, memberName, safeIdentifier, String.toList_ofList]
  exact (beginsWithoutDigit_safeChars _).append _

theorem isSafeName_argsConstructorName (domain command : String) :
    IsSafeName (argsConstructorName domain command) := by
  have chars : (argsConstructorName domain command).toList = "new_".toList ++
      (snake domain ++ "_" ++ snake command ++ "_args").toList := by
    simp only [argsConstructorName, String.toList_append, List.append_assoc]
  have others : ∀ known ∈ keywords ++ reservedNames, ¬ "new_".toList <+: known.toList := by decide
  refine .of_chars (isNameChar_argsConstructorName domain command) ?_ fun reserved => ?_
  · rw [chars]
    exact ⟨'n', _, rfl, by decide⟩
  · refine others _ reserved ?_
    rw [chars]
    exact List.prefix_append _ _

/-! ## Names of names -/

/-! ### Guards -/

section Guards

variable {text : List Char}

theorem betweenLowLines_guardDigit (name : List Char) :
    betweenLowLines (guardDigit name) = betweenLowLines name :=
  read_guardDigit betweenLowLines_lowLine name

theorem guardAmong_nil (name : List Char) : guardAmong [] name = name := rfl

theorem betweenLowLines_guardAmong (names : List String) (name : List Char) :
    betweenLowLines (guardAmong names name) = betweenLowLines name :=
  read_guardAmong betweenLowLines_concat_lowLine names name

theorem orValue_of_ne_nil (notEmpty : text ≠ []) : orValue text = text :=
  if_neg (by simpa using notEmpty)

theorem IsSeparated.orValue (separated : IsSeparated text) : IsSeparated (orValue text) := by
  unfold Naming.orValue
  split
  · exact ⟨by decide, by decide, by decide⟩
  · exact separated

/-- A text is found between the low lines that guard it. -/
theorem IsSeparated.strip_collapse_eq {guarded : List Char} (separated : IsSeparated text)
    (same : betweenLowLines guarded = betweenLowLines text) :
    stripLowLines (collapseLowLines guarded) = text := by
  rw [Naming.strip_collapse_eq, same, separated.intercalate_betweenLowLines]

end Guards

/-! ### Identifiers and attributes -/

theorem safeChars_safeChars (text : List Char) : safeChars (safeChars text) = safeChars text := by
  have spelled : ∃ spelling, IsSeparated spelling ∧
      safeChars text = guardReserved (guardDigit (orValue spelling)) :=
    ⟨_, isSeparated_strip_collapse _, rfl⟩
  obtain ⟨spelling, separated, same⟩ := spelled
  have between : betweenLowLines (safeChars text) = betweenLowLines (orValue spelling) := by
    rw [same, guardReserved_eq, betweenLowLines_guardAmong, betweenLowLines_guardDigit]
  rw [safeChars_of_names fun _ => isNameChar_of_mem_safeChars,
    separated.orValue.strip_collapse_eq between, orValue_of_ne_nil (orValue_ne_nil spelling), same]

theorem markBoundaries_of_small {text : List Char} (small : ∀ char ∈ text, ¬ char.isUpper) :
    markBoundaries text = text := by
  fun_induction markBoundaries text with
  | case1 left right rest boundary ih =>
    rw [isBoundary, Bool.and_eq_true] at boundary
    exact absurd boundary.1 (small right (by simp))
  | case2 left right rest boundary ih => rw [ih (List.forall_mem_cons.mp small).2]
  | case3 => rfl

/-- Of small letters, digits and low lines only low lines are changed. -/
theorem snakeChars_of_small {text : List Char} (names : ∀ char ∈ text, isNameChar char)
    (small : ∀ char ∈ text, ¬ char.isUpper) :
    snakeChars text = stripLowLines (collapseLowLines text) := by
  have clean : text.map (fun char => if isWordChar char then char else '_') = text := by
    refine (List.map_congr_left fun char member => ?_).trans (List.map_id' text)
    split
    · rfl
    · next other =>
      have name := names char member
      rw [isNameChar, Bool.or_eq_true, beq_iff_eq] at name
      exact (name.resolve_left other).symm
  rw [snakeChars, markBoundaries_of_small small, clean]
  refine (List.map_congr_left fun char member => ?_).trans (List.map_id' _)
  exact lowerAscii_of_not_isUpper (small char (mem_collapseLowLines (mem_stripLowLines member)))

theorem snakeChars_snakeChars (text : List Char) :
    snakeChars (snakeChars text) = snakeChars text := by
  have snake := isSnake_snakeChars text
  rw [snakeChars_of_small snake.chars snake.small, snake.isSeparated.strip_collapse_eq rfl]

/-- What a name in small letters is made of is found again, whatever it is guarded against. -/
theorem snakeChars_guardAmong (names : List String) (text : List Char) :
    snakeChars (guardAmong names (safeChars (snakeChars text))) = orValue (snakeChars text) := by
  have snake := isSnake_snakeChars text
  have between : betweenLowLines (guardAmong names (safeChars (snakeChars text))) =
      betweenLowLines (orValue (snakeChars text)) := by
    rw [betweenLowLines_guardAmong, snake.safeChars_eq, guardReserved_eq, betweenLowLines_guardAmong,
      betweenLowLines_guardDigit]
  have small : ∀ char ∈ guardAmong names (safeChars (snakeChars text)), ¬ char.isUpper := by
    intro char member
    rcases mem_guardAmong member with rfl | inside
    · decide
    · exact not_isUpper_of_mem_safeChars inside
  rw [snakeChars_of_small (fun _ => isNameChar_of_mem_guardAmong) small,
    snake.isSeparated.orValue.strip_collapse_eq between]

theorem safeChars_orValue_snakeChars (text : List Char) :
    safeChars (orValue (snakeChars text)) = safeChars (snakeChars text) := by
  have snake := isSnake_snakeChars text
  rw [snake.safeChars_eq, snake.isSnake_orValue.safeChars_eq, orValue_of_ne_nil (orValue_ne_nil _)]

section Stable

variable (name : String)

theorem safeIdentifier_safeIdentifier : safeIdentifier (safeIdentifier name) = safeIdentifier name := by
  rw [safeIdentifier, safeIdentifier, String.toList_ofList, safeChars_safeChars]

theorem snake_snake : snake (snake name) = snake name := by
  rw [snake, snake, String.toList_ofList, snakeChars_snakeChars]

theorem attributeName_attributeName : attributeName (attributeName name) = attributeName name := by
  have found := snakeChars_guardAmong [] name.toList
  rw [guardAmong_nil] at found
  simp only [attributeName, safeIdentifier, snake, String.toList_ofList, found,
    safeChars_orValue_snakeChars]

theorem moduleName_moduleName : moduleName (moduleName name) = moduleName name := by
  rw [moduleName, moduleName, String.toList_ofList, snakeChars_guardAmong,
    safeChars_orValue_snakeChars]

end Stable

/-! ### Classes -/

theorem pascalFrom_concat_lowLine (atStart : Bool) (text : List Char) :
    pascalFrom atStart (text ++ ['_']) = pascalFrom atStart text := by
  fun_induction pascalFrom atStart text with
  | case1 atStart => cases atStart <;> rfl
  | case2 atStart char rest word ih => rw [List.cons_append, pascalFrom, if_pos word, ih]
  | case3 atStart char rest other ih => rw [List.cons_append, pascalFrom, if_neg other, ih]

theorem pascalChars_guardAmong (names : List String) (name : List Char) :
    pascalChars (guardAmong names name) = pascalChars name :=
  read_guardAmong (pascalFrom_concat_lowLine true) names name

theorem pascalChars_guardDigit (name : List Char) :
    pascalChars (guardDigit name) = pascalChars name :=
  read_guardDigit (fun _ => rfl) name

theorem pascalFrom_of_words {text : List Char} (words : ∀ char ∈ text, isWordChar char) :
    pascalFrom false text = text := by
  induction text with
  | nil => rfl
  | cons char rest ih =>
    obtain ⟨word, others⟩ := List.forall_mem_cons.mp words
    rw [pascalFrom, if_pos word, ih others]
    rfl

theorem IsSpelling.pascalChars_eq {text : List Char} (spelling : IsSpelling text) :
    pascalChars text = text := by
  cases text with
  | nil => rfl
  | cons char rest =>
    obtain ⟨word, others⟩ := List.forall_mem_cons.mp spelling.words
    rw [pascalChars, pascalFrom, if_pos word, if_pos rfl, pascalFrom_of_words others,
      upperAscii_of_not_isLower (spelling.begins char rfl)]

theorem IsSpelling.pascalChars_safeChars {text : List Char} (spelling : IsSpelling text)
    (notEmpty : text ≠ []) : pascalChars (safeChars text) = text := by
  rw [safeChars_of_words spelling.words, guardReserved_eq, pascalChars_guardAmong,
    pascalChars_guardDigit, orValue_of_ne_nil notEmpty, spelling.pascalChars_eq]

theorem pascal_pascal (name : String) : pascal (pascal name) = pascal name := by
  rw [pascal, pascal, String.toList_ofList, (isSpelling_pascalChars _).pascalChars_eq]

theorem pascal_ne_empty_iff {name : String} : pascal name ≠ "" ↔ pascalChars name.toList ≠ [] := by
  rw [pascal, Ne, ← String.toList_inj, String.toList_ofList]
  rfl

/-- The class of a class is the class, unless the name it is of has no letter and no digit. -/
theorem className_className_iff (name : String) :
    className (className name) = className name ↔ pascal name ≠ "" := by
  have chars (name : String) : className name = String.ofList (safeChars (pascalChars name.toList)) := by
    rw [className, safeIdentifier, pascal, String.toList_ofList]
  rw [pascal_ne_empty_iff, chars, chars, String.toList_ofList]
  constructor
  · intro same empty
    rw [empty] at same
    exact absurd same (by decide)
  · intro notEmpty
    rw [(isSpelling_pascalChars _).pascalChars_safeChars notEmpty]

theorem domainClass_domainClass_iff (domain : String) :
    domainClass (domainClass domain) = domainClass domain ↔ pascal domain ≠ "" := by
  rw [pascal_ne_empty_iff, domainClass, domainClass, String.toList_ofList, pascalChars_guardAmong]
  constructor
  · intro same empty
    rw [empty] at same
    exact absurd same (by decide)
  · intro notEmpty
    rw [(isSpelling_pascalChars _).pascalChars_safeChars notEmpty]

/-! ## All names -/

/-- Names of generated code are safe, and a name made of one again is the same one. Only the class of
what has no letter and no digit is another one when it is made again. -/
theorem names_are_safe_and_stable (name other : String) :
    (IsSafeName (safeIdentifier name) ∧ IsSafeName (attributeName name) ∧
      IsSafeName (moduleName name) ∧ IsSafeName (className name) ∧ IsSafeName (domainClass name)) ∧
    (IsSafeName (memberName name other) ∧ IsSafeName (argsName name other) ∧
      IsSafeName (replyName name other) ∧ IsSafeName (eventClientName name other) ∧
      IsSafeName (argsConstructorName name other)) ∧
    (moduleName name ∉ reservedModules ∧ domainClass name ≠ "Client") ∧
    (safeIdentifier (safeIdentifier name) = safeIdentifier name ∧ snake (snake name) = snake name ∧
      pascal (pascal name) = pascal name ∧ attributeName (attributeName name) = attributeName name ∧
      moduleName (moduleName name) = moduleName name) ∧
    (className (className name) = className name ↔ pascal name ≠ "") ∧
    (domainClass (domainClass name) = domainClass name ↔ pascal name ≠ "") := by
  refine ⟨⟨isSafeName_safeIdentifier _, isSafeName_safeIdentifier _, isSafeName_guardAmong _ _,
    isSafeName_safeIdentifier _, isSafeName_guardAmong _ _⟩, ⟨isSafeName_safeIdentifier _, ?_, ?_, ?_,
    isSafeName_argsConstructorName _ _⟩, ⟨moduleName_not_mem_reservedModules _,
    (domainClass_ne_client _).1⟩, ⟨safeIdentifier_safeIdentifier _, snake_snake _, pascal_pascal _,
    attributeName_attributeName _, moduleName_moduleName _⟩, className_className_iff _,
    domainClass_domainClass_iff _⟩
  · exact isSafeName_memberName_append (by decide) (by decide)
  · exact isSafeName_memberName_append (by decide) (by decide)
  · exact isSafeName_memberName_append (by decide) (by decide)

/-- A class that is named by a word in small letters is another one when it is named again. -/
theorem dash_class_is_not_stable :
    className (className "-") ≠ className "-" ∧
      domainClass (domainClass "-") ≠ domainClass "-" := by decide

end ProtocolGen.Naming
