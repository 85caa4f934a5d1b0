import Mathlib.Data.List.Chain
import ProtocolGen.Emission.CommandsModule
import ProtocolGen.Proofs.Naming.Spelling
import ProtocolGen.Proofs.Text.Splitting

/-!
# Names of attributes that meet

The name of an attribute is made of a spelling in small letters: words with one low line between each
two. A name adds low lines at the ends of its spelling only, so the spelling is what is left when they
are taken off, and two names are equal exactly when their spellings are.
-/

set_option autoImplicit false

namespace ProtocolGen.Naming

open ProtocolGen.Text

/-! ## Spellings in small letters -/

/-- Not both of two characters are low lines. -/
def ApartLowLines (left right : Char) : Prop := ¬ (left = '_' ∧ right = '_')

instance (left right : Char) : Decidable (ApartLowLines left right) :=
  inferInstanceAs (Decidable (¬ (left = '_' ∧ right = '_')))

/-- Small letters and digits in words, with one low line between each two. -/
structure IsSnake (text : List Char) : Prop where
  chars : ∀ char ∈ text, isNameChar char
  small : ∀ char ∈ text, ¬ char.isUpper
  apart : text.IsChain ApartLowLines
  begins : ∀ char ∈ text.head?, char ≠ '_'
  ends : ∀ char ∈ text.getLast?, char ≠ '_'

instance (text : List Char) : Decidable (IsSnake text) :=
  decidable_of_iff ((∀ char ∈ text, isNameChar char) ∧ (∀ char ∈ text, ¬ char.isUpper) ∧
      text.IsChain ApartLowLines ∧ (∀ char ∈ text.head?, char ≠ '_') ∧
      ∀ char ∈ text.getLast?, char ≠ '_')
    ⟨fun ⟨chars, small, apart, begins, ends⟩ => ⟨chars, small, apart, begins, ends⟩,
      fun ⟨chars, small, apart, begins, ends⟩ => ⟨chars, small, apart, begins, ends⟩⟩

theorem isChain_collapseLowLines (text : List Char) :
    (collapseLowLines text).IsChain ApartLowLines ∧
      (collapseLowLines text).head? = text.head? := by
  fun_induction collapseLowLines text with
  | case1 rest ih => exact ⟨ih.1, ih.2⟩
  | case2 char rest other ih =>
    refine ⟨?_, rfl⟩
    rw [List.isChain_cons]
    refine ⟨fun next first => ?_, ih.1⟩
    rw [ih.2] at first
    intro both
    obtain ⟨rfl, rfl⟩ := both
    obtain ⟨more, rfl⟩ := List.head?_eq_some_iff.mp first
    exact other _ rfl rfl
  | case3 => exact ⟨.nil, rfl⟩

theorem collapseLowLines_of_isChain {text : List Char} (apart : text.IsChain ApartLowLines) :
    collapseLowLines text = text := by
  fun_induction collapseLowLines text with
  | case1 rest _ => exact absurd ⟨rfl, rfl⟩ (List.isChain_cons_cons.mp apart).1
  | case2 char rest _ ih => rw [ih (List.IsChain.tail apart)]
  | case3 => rfl

theorem stripLowLines_isInfix (text : List Char) : stripLowLines text <:+: text :=
  (dropEndWhile_isPrefix _ _).isInfix.trans (List.dropWhile_suffix _).isInfix

theorem head?_stripLowLines (text : List Char) : ∀ char ∈ (stripLowLines text).head?, char ≠ '_' := by
  intro char first
  obtain ⟨rest, stripped⟩ := List.head?_eq_some_iff.mp first
  exact stripLowLines_head stripped

theorem getLast?_stripLowLines (text : List Char) :
    ∀ char ∈ (stripLowLines text).getLast?, char ≠ '_' := by
  intro char last
  rw [stripLowLines, dropEndWhile, List.getLast?_reverse] at last
  have notDropped := List.head?_dropWhile_not (· == '_') (text.dropWhile (· == '_')).reverse
  rw [last] at notDropped
  simpa using notDropped

theorem stripLowLines_of_ends {text : List Char} (begins : ∀ char ∈ text.head?, char ≠ '_')
    (ends : ∀ char ∈ text.getLast?, char ≠ '_') : stripLowLines text = text := by
  have kept {list : List Char} (begins : ∀ char ∈ list.head?, char ≠ '_') :
      list.dropWhile (· == '_') = list := by
    cases list with
    | nil => rfl
    | cons first rest => exact List.dropWhile_cons_of_neg (by simpa using begins first rfl)
  rw [stripLowLines, kept begins, dropEndWhile, kept (by simpa using ends), List.reverse_reverse]

theorem lowerAscii_eq_lowLine_iff {char : Char} : lowerAscii char = '_' ↔ char = '_' := by
  have letters : ∀ number < 26, Char.ofNat (number + 97) ≠ '_' := by decide
  by_cases upper : char.isUpper
  · obtain ⟨number, range, -, small⟩ := exists_lowerAscii_eq upper
    rw [small]
    refine iff_of_false (letters number range) ?_
    rintro rfl
    exact absurd upper (by decide)
  · rw [lowerAscii_of_not_isUpper upper]

theorem isNameChar_lowerAscii {char : Char} (name : isNameChar char) :
    isNameChar (lowerAscii char) := by
  have letters : ∀ number < 26, isNameChar (Char.ofNat (number + 97)) := by decide
  by_cases upper : char.isUpper
  · obtain ⟨number, range, -, small⟩ := exists_lowerAscii_eq upper
    rw [small]
    exact letters number range
  · rwa [lowerAscii_of_not_isUpper upper]

theorem isNameChar_of_mem_snakeChars {char : Char} {text : List Char}
    (member : char ∈ snakeChars text) : isNameChar char := by
  obtain ⟨stripped, inStripped, rfl⟩ := List.mem_map.mp member
  obtain ⟨marked, -, rfl⟩ := List.mem_map.mp (mem_collapseLowLines (mem_stripLowLines inStripped))
  refine isNameChar_lowerAscii ?_
  split
  · next word => rw [isNameChar, show marked.isAlphanum from word, Bool.true_or]
  · rfl

theorem isNameChar_snake (text : String) : ∀ char ∈ (Naming.snake text).toList, isNameChar char := by
  intro char member
  rw [Naming.snake, String.toList_ofList] at member
  exact isNameChar_of_mem_snakeChars member

theorem isNameChar_argsConstructorName (domain name : String) :
    ∀ char ∈ (argsConstructorName domain name).toList, isNameChar char := by
  rw [argsConstructorName]
  refine isNameChar_of_mem_append ?_ (by decide)
  refine isNameChar_of_mem_append ?_ (isNameChar_snake name)
  refine isNameChar_of_mem_append ?_ (by decide)
  exact isNameChar_of_mem_append (by decide) (isNameChar_snake domain)

theorem isSnake_snakeChars (text : List Char) : IsSnake (snakeChars text) where
  chars _ := isNameChar_of_mem_snakeChars
  small _ := not_isUpper_of_mem_snakeChars
  apart := by
    refine List.isChain_map_of_isChain _ ?_ <| List.IsChain.infix (isChain_collapseLowLines _).1
      (stripLowLines_isInfix _)
    intro left right apart both
    exact apart ⟨lowerAscii_eq_lowLine_iff.mp both.1, lowerAscii_eq_lowLine_iff.mp both.2⟩
  begins := by
    intro char first
    rw [snakeChars, List.head?_map] at first
    obtain ⟨original, found, rfl⟩ := Option.map_eq_some_iff.mp first
    exact fun lowLine => head?_stripLowLines _ original found (lowerAscii_eq_lowLine_iff.mp lowLine)
  ends := by
    intro char last
    rw [snakeChars, List.getLast?_map] at last
    obtain ⟨original, found, rfl⟩ := Option.map_eq_some_iff.mp last
    exact fun lowLine =>
      getLast?_stripLowLines _ original found (lowerAscii_eq_lowLine_iff.mp lowLine)

/-! ## Guards against digits and reserved names -/

theorem stripLowLines_lowLine (text : List Char) :
    stripLowLines ('_' :: text) = stripLowLines text := by
  rw [stripLowLines, List.dropWhile_cons_of_pos (by decide), stripLowLines]

theorem stripLowLines_concat_lowLine (text : List Char) :
    stripLowLines (text ++ ['_']) = stripLowLines text := by
  rw [stripLowLines, stripLowLines, List.dropWhile_append]
  split
  · next empty => rw [List.isEmpty_iff.mp empty, List.dropWhile_cons_of_pos (by decide), List.dropWhile_nil]
  · rw [dropEndWhile_eq_rdropWhile, List.rdropWhile_concat_pos _ _ _ (by decide)]

theorem stripLowLines_guardDigit (text : List Char) :
    stripLowLines (guardDigit text) = stripLowLines text :=
  read_guardDigit stripLowLines_lowLine text

theorem stripLowLines_guardReserved (text : List Char) :
    stripLowLines (guardReserved text) = stripLowLines text :=
  read_guardReserved stripLowLines_concat_lowLine text

namespace IsSnake

variable {text : List Char} (snake : IsSnake text)

include snake

theorem strip_eq : stripLowLines text = text := stripLowLines_of_ends snake.begins snake.ends

theorem isSnake_orValue : IsSnake (orValue text) := by
  unfold orValue
  split
  · decide
  · exact snake

theorem safeChars_eq : safeChars text = guardReserved (guardDigit (orValue text)) := by
  rw [safeChars_of_names snake.chars, collapseLowLines_of_isChain snake.apart, snake.strip_eq]

end IsSnake

/-! ## Attributes -/

/-- What the attribute of a property is made of. -/
def attributeSpelling (name : String) : String := String.ofList (orValue (snakeChars name.toList))

theorem toList_attributeSpelling (name : String) :
    (attributeSpelling name).toList = orValue (snakeChars name.toList) := String.toList_ofList

theorem isSnake_attributeSpelling (name : String) : IsSnake (attributeSpelling name).toList := by
  rw [toList_attributeSpelling]
  exact (isSnake_snakeChars _).isSnake_orValue

theorem toList_attributeName (name : String) : (attributeName name).toList =
    guardReserved (guardDigit (attributeSpelling name).toList) := by
  rw [attributeName, safeIdentifier, String.toList_ofList, Naming.snake, String.toList_ofList,
    (isSnake_snakeChars _).safeChars_eq, toList_attributeSpelling]

theorem strip_attributeName (name : String) :
    stripLowLines (attributeName name).toList = (attributeSpelling name).toList := by
  rw [toList_attributeName, stripLowLines_guardReserved, stripLowLines_guardDigit,
    (isSnake_attributeSpelling name).strip_eq]

/-- Attributes are told apart by their spellings alone. -/
theorem attributeName_inj {name other : String} :
    attributeName name = attributeName other ↔ attributeSpelling name = attributeSpelling other := by
  constructor
  · intro same
    rw [← String.toList_inj, ← strip_attributeName, ← strip_attributeName, same]
  · intro same
    rw [← String.toList_inj, toList_attributeName, toList_attributeName, same]

/-- A spelling that is an attribute as it stands. -/
structure IsPlain (known : List Char) : Prop where
  snake : IsSnake known
  notDigit : ¬ known.head?.any Char.isDigit
  notReserved : ¬ (isKeyword known ∨ isAmong reservedNames known)

instance (known : List Char) : Decidable (IsPlain known) :=
  decidable_of_iff (IsSnake known ∧ ¬ known.head?.any Char.isDigit ∧
      ¬ (isKeyword known ∨ isAmong reservedNames known))
    ⟨fun ⟨snake, notDigit, notReserved⟩ => ⟨snake, notDigit, notReserved⟩,
      fun ⟨snake, notDigit, notReserved⟩ => ⟨snake, notDigit, notReserved⟩⟩

theorem guardDigit_of_not_digit {text : List Char} (notDigit : ¬ text.head?.any Char.isDigit) :
    guardDigit text = text := by
  cases text with
  | nil => rfl
  | cons first rest => exact if_neg (by simpa using notDigit)

theorem attributeName_eq_iff {name known : String} (plain : IsPlain known.toList) :
    attributeName name = known ↔ attributeSpelling name = known := by
  constructor
  · intro same
    rw [← String.toList_inj, ← strip_attributeName, same, plain.snake.strip_eq]
  · intro same
    rw [← String.toList_inj, toList_attributeName, same, guardDigit_of_not_digit plain.notDigit,
      guardReserved, if_neg (by simpa using plain.notReserved)]

/-- A name that is spelled as it stands and is not reserved is its own attribute. -/
theorem attributeName_of_plain {name : String} (spelled : attributeSpelling name = name)
    (notDigit : ¬ name.toList.head?.any Char.isDigit) (other : name ∉ keywords ++ reservedNames) :
    attributeName name = name := by
  have notReserved : ¬ (isKeyword name.toList || isAmong reservedNames name.toList) := by
    simpa [isKeyword, isAmong, String.toList_inj] using other
  rw [← String.toList_inj, toList_attributeName, spelled, guardDigit_of_not_digit notDigit,
    guardReserved, if_neg notReserved]

/-! ## Setters -/

/-- The name of the method that sets an argument, given the attribute it is kept in. -/
def setterName (memberName : String) : String := "set_" ++ Emission.withoutEndLowLines memberName

theorem orValue_ne_nil (text : List Char) : orValue text ≠ [] := by
  unfold orValue
  split
  · decide
  · next notEmpty => simpa using notEmpty

theorem attributeSpelling_ne_nil (name : String) : (attributeSpelling name).toList ≠ [] := by
  rw [toList_attributeSpelling]
  exact orValue_ne_nil _

theorem dropEndWhile_of_ends {text : List Char} (ends : ∀ char ∈ text.getLast?, char ≠ '_') :
    dropEndWhile (· == '_') text = text := by
  rw [dropEndWhile_eq_rdropWhile, List.rdropWhile_eq_self_iff]
  intro notEmpty lowLine
  exact ends _ (List.getLast?_eq_some_getLast notEmpty) (by simpa using lowLine)

theorem getLast?_guardDigit {text : List Char} (notEmpty : text ≠ []) :
    (guardDigit text).getLast? = text.getLast? := by
  obtain ⟨first, rest, rfl⟩ := List.exists_cons_of_ne_nil notEmpty
  rw [guardDigit]
  split
  · exact List.getLast?_cons_cons
  · rfl

theorem toList_withoutEndLowLines (name : String) :
    (Emission.withoutEndLowLines (attributeName name)).toList =
      guardDigit (attributeSpelling name).toList := by
  have kept : dropEndWhile (· == '_') (guardDigit (attributeSpelling name).toList) =
      guardDigit (attributeSpelling name).toList := by
    refine dropEndWhile_of_ends ?_
    rw [getLast?_guardDigit (attributeSpelling_ne_nil name)]
    exact (isSnake_attributeSpelling name).ends
  rw [Emission.withoutEndLowLines, String.toList_ofList, toList_attributeName, guardReserved]
  split
  · rw [dropEndWhile_eq_rdropWhile, List.rdropWhile_concat_pos _ _ _ (by decide),
      ← dropEndWhile_eq_rdropWhile, kept]
  · exact kept

def BeginsWithDigit (text : String) : Prop := text.toList.head?.any Char.isDigit

instance (text : String) : Decidable (BeginsWithDigit text) :=
  inferInstanceAs (Decidable (text.toList.head?.any Char.isDigit = true))

/-- No reserved name and no keyword has a low line. -/
theorem not_reserved_of_lowLine {text : List Char} (lowLine : '_' ∈ text) :
    ¬ (isKeyword text ∨ isAmong reservedNames text) := by
  have words : ∀ word ∈ keywords ++ reservedNames, '_' ∉ word.toList := by decide
  rw [isKeyword, isAmong, List.any_eq_true, List.any_eq_true]
  rintro (⟨word, known, same⟩ | ⟨word, known, same⟩)
  · exact words word (List.mem_append_left _ known) (beq_iff_eq.mp same ▸ lowLine)
  · exact words word (List.mem_append_right _ known) (beq_iff_eq.mp same ▸ lowLine)

theorem isPlain_set {text : List Char} (snake : IsSnake text) (notEmpty : text ≠ []) :
    IsPlain ("set_".toList ++ text) := by
  have set : "set_".toList = ['s', 'e', 't', '_'] := rfl
  refine ⟨⟨fun char member => ?_, fun char member => ?_, ?_, ?_, ?_⟩, ?_,
    not_reserved_of_lowLine (by simp)⟩
  · rcases List.mem_append.mp member with inSet | inText
    · exact (by decide : ∀ char ∈ "set_".toList, isNameChar char) char inSet
    · exact snake.chars char inText
  · rcases List.mem_append.mp member with inSet | inText
    · exact (by decide : ∀ char ∈ "set_".toList, ¬ char.isUpper) char inSet
    · exact snake.small char inText
  · refine List.isChain_append.mpr ⟨by decide, snake.apart, ?_⟩
    intro left _ right first both
    exact snake.begins right first both.2
  · rw [set]
    simp
  · rw [List.getLast?_append_of_ne_nil _ notEmpty]
    exact snake.ends
  · rw [set]
    simp

/-- An attribute has the name of a setter when it is spelled so, unless the setter is that of an
argument whose attribute was guarded against a digit. -/
theorem attributeName_eq_setterName_iff {name other : String} :
    attributeName name = setterName (attributeName other) ↔
      attributeSpelling name = "set_" ++ attributeSpelling other ∧
        ¬ BeginsWithDigit (attributeSpelling other) := by
  have snake := isSnake_attributeSpelling other
  by_cases digit : BeginsWithDigit (attributeSpelling other)
  · refine iff_of_false (fun same => ?_) (fun both => both.2 digit)
    obtain ⟨first, rest, spelled⟩ := List.exists_cons_of_ne_nil (attributeSpelling_ne_nil other)
    have setter : (setterName (attributeName other)).toList =
        's' :: 'e' :: 't' :: '_' :: '_' :: (attributeSpelling other).toList := by
      have isDigit : first.isDigit := by simpa [BeginsWithDigit, spelled] using digit
      rw [setterName, String.toList_append, toList_withoutEndLowLines, spelled, guardDigit,
        if_pos isDigit]
      rfl
    have stripped := strip_attributeName name
    rw [same, setter, stripLowLines_of_ends (by simp)] at stripped
    · have apart := (isSnake_attributeSpelling name).apart
      rw [← stripped] at apart
      simp [ApartLowLines] at apart
    · rw [spelled] at snake ⊢
      simpa using snake.ends
  · have setter : setterName (attributeName other) = "set_" ++ attributeSpelling other := by
      rw [← String.toList_inj, setterName, String.toList_append, toList_withoutEndLowLines,
        guardDigit_of_not_digit digit, String.toList_append]
    have plain : IsPlain ("set_" ++ attributeSpelling other).toList := by
      rw [String.toList_append]
      exact isPlain_set snake (attributeSpelling_ne_nil other)
    rw [setter, attributeName_eq_iff plain]
    exact ⟨fun same => ⟨same, digit⟩, fun both => both.1⟩

theorem setterName_inj {name other : String} :
    setterName (attributeName name) = setterName (attributeName other) ↔
      attributeSpelling name = attributeSpelling other := by
  rw [setterName, setterName, String.append_right_inj, ← String.toList_inj,
    toList_withoutEndLowLines, toList_withoutEndLowLines]
  constructor
  · intro same
    have stripped := congrArg stripLowLines same
    rwa [stripLowLines_guardDigit, stripLowLines_guardDigit,
      (isSnake_attributeSpelling name).strip_eq, (isSnake_attributeSpelling other).strip_eq,
      String.toList_inj] at stripped
  · intro same
    rw [same]

end ProtocolGen.Naming
