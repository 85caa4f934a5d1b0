import ProtocolGen.Naming
import ProtocolGen.Proofs.Text.Characters

/-!
# The characters of names

Names of generated code are made of letters, digits and low lines, never begin with a digit or with
two low lines, and so are identifiers. No domain's module has the name of a reserved one.
-/

set_option autoImplicit false

namespace ProtocolGen.Naming

open ProtocolGen.Text

/-! ## Guards -/

section Guards

theorem guardReserved_eq (name : List Char) :
    guardReserved name = guardAmong (keywords ++ reservedNames) name := by
  rw [guardReserved, guardAmong, isKeyword, isAmong, isAmong, List.any_append]

/-- A guard against digits puts at most a low line in front of a name. -/
theorem guardDigit_cases (name : List Char) :
    guardDigit name = name ∨ guardDigit name = '_' :: name := by
  unfold guardDigit
  split
  · split
    · exact .inr rfl
    · exact .inl rfl
  · exact .inl rfl

/-- A guard against names puts at most a low line behind a name. -/
theorem guardAmong_cases (names : List String) (name : List Char) :
    guardAmong names name = name ∨ guardAmong names name = name ++ ['_'] := by
  unfold guardAmong
  split
  · exact .inr rfl
  · exact .inl rfl

variable {Result : Type} {read : List Char → Result}

/-- What does not depend on a low line in front is the same for a name behind its guard. -/
theorem read_guardDigit (passes : ∀ name, read ('_' :: name) = read name) (name : List Char) :
    read (guardDigit name) = read name := by
  rcases guardDigit_cases name with same | guarded
  · rw [same]
  · rw [guarded, passes]

theorem read_guardAmong (passes : ∀ name, read (name ++ ['_']) = read name) (names : List String)
    (name : List Char) : read (guardAmong names name) = read name := by
  rcases guardAmong_cases names name with same | guarded
  · rw [same]
  · rw [guarded, passes]

theorem read_guardReserved (passes : ∀ name, read (name ++ ['_']) = read name) (name : List Char) :
    read (guardReserved name) = read name := by
  rw [guardReserved_eq, read_guardAmong passes]

theorem mem_guardAmong {char : Char} {names : List String} {name : List Char}
    (member : char ∈ guardAmong names name) : char = '_' ∨ char ∈ name := by
  rcases guardAmong_cases names name with same | guarded
  · exact .inr (same ▸ member)
  · rw [guarded] at member
    exact (List.mem_append.mp member).symm.imp_left List.mem_singleton.mp

theorem mem_guards {char : Char} {name : List Char}
    (member : char ∈ guardReserved (guardDigit name)) : char = '_' ∨ char ∈ name := by
  rw [guardReserved_eq] at member
  refine (mem_guardAmong member).elim .inl fun inside => ?_
  rcases guardDigit_cases name with same | guarded
  · exact .inr (same ▸ inside)
  · rw [guarded] at inside
    exact List.mem_cons.mp inside

end Guards

/-! ## Characters -/

/-- At most one low line stands before the first other character, and there is one. -/
def BeginsPlainly (name : List Char) : Prop :=
  ∃ before first rest, name = before ++ first :: rest ∧ before.length ≤ 1 ∧ first ≠ '_'

theorem BeginsPlainly.append {name : List Char} (plain : BeginsPlainly name) (more : List Char) :
    BeginsPlainly (name ++ more) := by
  obtain ⟨before, first, rest, rfl, short, other⟩ := plain
  exact ⟨before, first, rest ++ more, by simp, short, other⟩

theorem BeginsPlainly.not_two_low_lines {rest : List Char} : ¬ BeginsPlainly ('_' :: '_' :: rest) := by
  intro plain
  obtain ⟨before, first, others, same, short, other⟩ := plain
  match before with
  | [] =>
    cases same
    exact other rfl
  | [_] =>
    cases same
    exact other rfl
  | _ :: _ :: _ => simp at short

theorem dropEndWhile_isPrefix {α : Type} (inClass : α → Bool) (list : List α) :
    dropEndWhile inClass list <+: list := by
  rw [← List.reverse_suffix, dropEndWhile, List.reverse_reverse]
  exact List.dropWhile_suffix _

theorem mem_collapseLowLines {char : Char} {name : List Char}
    (member : char ∈ collapseLowLines name) : char ∈ name := by
  fun_induction collapseLowLines name with
  | case1 rest ih => exact List.mem_cons_of_mem _ (ih member)
  | case2 first rest _ ih =>
    rcases List.mem_cons.mp member with rfl | later
    · exact List.mem_cons_self
    · exact List.mem_cons_of_mem _ (ih later)
  | case3 => cases member

theorem mem_stripLowLines {char : Char} {name : List Char} (member : char ∈ stripLowLines name) :
    char ∈ name :=
  (List.dropWhile_suffix _).subset ((dropEndWhile_isPrefix _ _).subset member)

theorem stripLowLines_head {name rest : List Char} {first : Char}
    (stripped : stripLowLines name = first :: rest) : first ≠ '_' := by
  obtain ⟨more, same⟩ := dropEndWhile_isPrefix (· == '_') (name.dropWhile (· == '_'))
  rw [← stripLowLines, stripped] at same
  rintro rfl
  have notEmpty : name.dropWhile (· == '_') ≠ [] := by
    rw [← same]
    exact List.cons_ne_nil _ _
  have head := List.head_dropWhile_not (· == '_') notEmpty
  simp [← same] at head

theorem isNameChar_of_mem_safeChars {char : Char} {text : List Char}
    (member : char ∈ safeChars text) : isNameChar char := by
  have value : "value".toList = ['v', 'a', 'l', 'u', 'e'] := rfl
  unfold safeChars at member
  dsimp only at member
  rcases mem_guards member with rfl | inside
  · rfl
  · split at inside
    · rw [value] at inside
      exact List.all_eq_true.mp (by decide : ['v', 'a', 'l', 'u', 'e'].all isNameChar) char inside
    · have cleaned := mem_collapseLowLines (mem_stripLowLines inside)
      obtain ⟨original, -, rfl⟩ := List.mem_map.mp cleaned
      split
      · assumption
      · rfl

theorem beginsPlainly_guardDigit {first : Char} (rest : List Char) (other : first ≠ '_') :
    BeginsPlainly (guardDigit (first :: rest)) := by
  rw [guardDigit]
  split
  · exact ⟨['_'], first, rest, rfl, Nat.le_refl _, other⟩
  · exact ⟨[], first, rest, rfl, Nat.zero_le _, other⟩

theorem BeginsPlainly.guardAmong {name : List Char} (plain : BeginsPlainly name)
    (names : List String) : BeginsPlainly (guardAmong names name) := by
  rcases guardAmong_cases names name with same | guarded
  · rwa [same]
  · rw [guarded]
    exact plain.append _

theorem beginsPlainly_safeChars (text : List Char) : BeginsPlainly (safeChars text) := by
  unfold safeChars
  dsimp only
  rw [guardReserved_eq]
  refine BeginsPlainly.guardAmong ?_ _
  split
  · exact beginsPlainly_guardDigit _ (by decide)
  · next notEmpty =>
    obtain ⟨first, rest, stripped⟩ := List.exists_cons_of_ne_nil (by simpa using notEmpty)
    rw [stripped]
    exact beginsPlainly_guardDigit rest (stripLowLines_head stripped)

theorem isNameChar_of_mem_guardAmong {char : Char} {names : List String} {text : List Char}
    (member : char ∈ guardAmong names (safeChars text)) : isNameChar char := by
  rcases mem_guardAmong member with rfl | inside
  · rfl
  · exact isNameChar_of_mem_safeChars inside

/-- A guarded name is none of those it is guarded against, when these do not end as it does. -/
theorem guardAmong_not_mem {names : List String}
    (unguarded : ∀ known ∈ names, known.toList.getLast? ≠ some '_') (name : List Char) :
    String.ofList (guardAmong names name) ∉ names := by
  intro reserved
  rw [guardAmong] at reserved
  split at reserved
  · refine unguarded _ reserved ?_
    rw [String.toList_ofList, List.getLast?_concat]
  · next notAmong =>
    refine notAmong (List.any_eq_true.mpr ⟨_, reserved, ?_⟩)
    rw [String.toList_ofList, beq_self_eq_true]

/-- A name is none of those that do not end as it does. -/
theorem append_not_mem {names : List String} {name ending : String}
    (others : ∀ known ∈ names, ¬ ending.toList <:+ known.toList) : name ++ ending ∉ names := by
  intro known
  refine others _ known ?_
  rw [String.toList_append]
  exact List.suffix_append _ _

theorem isNameChar_of_mem_moduleName {char : Char} {domain : String}
    (member : char ∈ (moduleName domain).toList) : isNameChar char := by
  rw [moduleName, String.toList_ofList] at member
  exact isNameChar_of_mem_guardAmong member

theorem isNameChar_of_mem_domainClass {char : Char} {domain : String}
    (member : char ∈ (domainClass domain).toList) : isNameChar char := by
  rw [domainClass, String.toList_ofList] at member
  exact isNameChar_of_mem_guardAmong member

theorem isNameChar_of_mem_append {name more : String} (names : ∀ char ∈ name.toList, isNameChar char)
    (others : ∀ char ∈ more.toList, isNameChar char) :
    ∀ char ∈ (name ++ more).toList, isNameChar char := by
  intro char member
  rw [String.toList_append] at member
  exact (List.mem_append.mp member).elim (names char) (others char)

theorem isNameChar_of_mem_safeIdentifier {char : Char} {text : String}
    (member : char ∈ (safeIdentifier text).toList) : isNameChar char := by
  rw [safeIdentifier, String.toList_ofList] at member
  exact isNameChar_of_mem_safeChars member

theorem isNameChar_of_mem_memberName {char : Char} {domain name : String}
    (member : char ∈ (memberName domain name).toList) : isNameChar char :=
  isNameChar_of_mem_safeIdentifier member

theorem beginsPlainly_moduleName (domain : String) : BeginsPlainly (moduleName domain).toList := by
  rw [moduleName, String.toList_ofList]
  exact (beginsPlainly_safeChars _).guardAmong _

/-- Domains whose names are spelled alike in small letters share a module. -/
theorem moduleName_congr {domain other : String}
    (same : snakeChars domain.toList = snakeChars other.toList) : moduleName domain = moduleName other := by
  rw [moduleName, moduleName, same]

/-- A domain's module never has a reserved name. -/
theorem moduleName_not_mem_reservedModules (domain : String) :
    moduleName domain ∉ reservedModules :=
  guardAmong_not_mem (by decide) _

/-! ## Names as identifiers -/

theorem toNat_lt_of_isNameChar {char : Char} (name : isNameChar char) : char.toNat < 0x80 := by
  rw [isNameChar, Bool.or_eq_true, beq_iff_eq, isAlphanum_iff, isAlpha_iff, isUpper_iff, isLower_iff,
    isDigit_iff] at name
  rcases name with ((upper | lower) | digit) | rfl
  · exact Nat.lt_of_le_of_lt upper.2 (by decide)
  · exact Nat.lt_of_le_of_lt lower.2 (by decide)
  · exact Nat.lt_of_le_of_lt digit.2 (by decide)
  · decide

theorem isIdentifierContinue_of_isNameChar {char : Char} (name : isNameChar char) :
    isIdentifierContinue char := by
  rw [isIdentifierContinue, if_pos (toNat_lt_of_isNameChar name)]
  exact name

theorem isIdentifierStart_of_isNameChar {char : Char} (name : isNameChar char)
    (notDigit : ¬ char.isDigit) : isIdentifierStart char := by
  rw [isIdentifierStart, if_pos (toNat_lt_of_isNameChar name)]
  rw [isNameChar, Char.isAlphanum] at name
  simpa [notDigit] using name

theorem isIdentifier_of_isNameChar {first : Char} {rest : List Char} (notDigit : ¬ first.isDigit)
    (names : ∀ char ∈ first :: rest, isNameChar char) : isIdentifier (first :: rest) := by
  rw [List.forall_mem_cons] at names
  rw [isIdentifier, Bool.and_eq_true, List.all_eq_true]
  exact ⟨isIdentifierStart_of_isNameChar names.1 notDigit,
    fun char member => isIdentifierContinue_of_isNameChar (names.2 char member)⟩

theorem isIdentifier_append {name more : List Char} (identifier : isIdentifier name)
    (names : ∀ char ∈ more, isNameChar char) : isIdentifier (name ++ more) := by
  cases name with
  | nil => cases identifier
  | cons first rest =>
    rw [isIdentifier, Bool.and_eq_true] at identifier
    rw [List.cons_append, isIdentifier, Bool.and_eq_true, List.all_append, Bool.and_eq_true]
    refine ⟨identifier.1, identifier.2, List.all_eq_true.mpr ?_⟩
    exact fun char member => isIdentifierContinue_of_isNameChar (names char member)

/-- A name that has a first character, which is no digit. -/
def BeginsWithoutDigit (name : List Char) : Prop :=
  ∃ first rest, name = first :: rest ∧ ¬ first.isDigit

theorem BeginsWithoutDigit.append {name : List Char} (begins : BeginsWithoutDigit name)
    (more : List Char) : BeginsWithoutDigit (name ++ more) := by
  obtain ⟨first, rest, rfl, notDigit⟩ := begins
  exact ⟨first, rest ++ more, rfl, notDigit⟩

theorem BeginsWithoutDigit.guardAmong {name : List Char} (begins : BeginsWithoutDigit name)
    (names : List String) : BeginsWithoutDigit (guardAmong names name) := by
  rcases guardAmong_cases names name with same | guarded
  · rwa [same]
  · rw [guarded]
    exact begins.append _

theorem beginsWithoutDigit_guardDigit {name : List Char} (notEmpty : name ≠ []) :
    BeginsWithoutDigit (guardDigit name) := by
  obtain ⟨first, rest, rfl⟩ := List.exists_cons_of_ne_nil notEmpty
  rw [guardDigit]
  split
  · exact ⟨'_', _, rfl, by decide⟩
  · exact ⟨first, rest, rfl, by assumption⟩

theorem beginsWithoutDigit_safeChars (text : List Char) : BeginsWithoutDigit (safeChars text) := by
  rw [safeChars, guardReserved_eq]
  refine (beginsWithoutDigit_guardDigit ?_).guardAmong _
  split
  · decide
  · next notEmpty => simpa using notEmpty

theorem isIdentifier_safeChars (text : List Char) : isIdentifier (safeChars text) := by
  obtain ⟨first, rest, chars, notDigit⟩ := beginsWithoutDigit_safeChars text
  rw [chars]
  exact isIdentifier_of_isNameChar notDigit fun char member =>
    isNameChar_of_mem_safeChars (chars ▸ member)

theorem isIdentifier_safeIdentifier (text : String) : isIdentifier (safeIdentifier text).toList := by
  rw [safeIdentifier, String.toList_ofList]
  exact isIdentifier_safeChars _

theorem isIdentifierContinue_of_isIdentifierStart {char : Char} (start : isIdentifierStart char) :
    isIdentifierContinue char := by
  rw [isIdentifierStart] at start
  rw [isIdentifierContinue]
  split at start
  · next ascii =>
    rw [if_pos ascii, isAsciiIdentifierChar, Char.isAlphanum]
    rw [Bool.or_eq_true] at start
    rcases start with letter | lowLine
    · rw [letter, Bool.true_or, Bool.true_or]
    · rw [lowLine, Bool.or_true]
  · next other => rw [if_neg other, start, Bool.true_or]

/-- An identifier has only characters that it may go on with. -/
theorem not_mem_of_isIdentifier {char : Char} (other : ¬ isIdentifierContinue char) {name : List Char}
    (identifier : isIdentifier name) : char ∉ name := by
  cases name with
  | nil => exact List.not_mem_nil
  | cons first rest =>
    obtain ⟨start, continued⟩ := Bool.and_eq_true_iff.mp identifier
    have all : ∀ char ∈ first :: rest, isIdentifierContinue char :=
      List.forall_mem_cons.mpr ⟨isIdentifierContinue_of_isIdentifierStart start,
        List.all_eq_true.mp continued⟩
    exact fun member => other (all char member)

/-- Whether a range of code points has no blank beyond ASCII in it. The last blanks are asked first,
since most ranges stand behind them. -/
def isClearOfBlanks (range : Nat × Nat) : Bool :=
  0x3000 < range.1 || range.2 < 0x3000 && (0x205F < range.1 || 0x202F < range.1 && range.2 < 0x205F ||
    0x200A < range.1 && range.2 < 0x2028 || range.2 < 0x2000 &&
      (0x1680 < range.1 || range.2 < 0x1680 && (0xA0 < range.1 || range.2 < 0x85)))

theorem isClearOfBlanks_of_mem : ∀ range ∈ identifierStartRanges ++ identifierOnlyContinueRanges,
    isClearOfBlanks range :=
  List.all_eq_true.mp (by decide +kernel)

theorem not_inRanges_of_isBlank {ranges : List (Nat × Nat)} {char : Char}
    (clear : ∀ range ∈ ranges, isClearOfBlanks range) (blank : isBlank char)
    (beyond : 0x80 ≤ char.toNat) : ¬ inRanges ranges char.toNat := by
  intro inRange
  obtain ⟨range, member, within⟩ := List.any_eq_true.mp inRange
  have clear := clear range member
  simp only [isBlank, isClearOfBlanks, Bool.or_eq_true, Bool.and_eq_true, decide_eq_true_eq,
    beq_iff_eq] at blank clear within
  omega

theorem not_isIdentifierContinue_of_isBlank {char : Char} (blank : isBlank char) :
    ¬ isIdentifierContinue char := by
  rw [isIdentifierContinue]
  split
  · next ascii =>
    have other : ∀ blank ∈ blanks, isAsciiIdentifierChar blank = false := by decide
    rw [other char (mem_blanks_of_isBlank blank)]
    exact Bool.false_ne_true
  · next beyond =>
    obtain ⟨start, onlyContinue⟩ := List.forall_mem_append.mp isClearOfBlanks_of_mem
    have beyond := Nat.le_of_not_lt beyond
    rw [Bool.or_eq_true]
    exact not_or.mpr ⟨not_inRanges_of_isBlank start blank beyond,
      not_inRanges_of_isBlank onlyContinue blank beyond⟩

theorem isIdentifier_lowLine {name : List Char} (identifier : isIdentifier name) :
    isIdentifier ('_' :: name) := by
  cases name with
  | nil => cases identifier
  | cons first rest =>
    obtain ⟨start, continued⟩ := Bool.and_eq_true_iff.mp identifier
    rw [isIdentifier, List.all_cons, isIdentifierContinue_of_isIdentifierStart start, continued]
    decide

theorem isIdentifier_safeIdentifier_append (text more : String)
    (names : ∀ char ∈ more.toList, isNameChar char) :
    isIdentifier (safeIdentifier text ++ more).toList := by
  rw [String.toList_append]
  exact isIdentifier_append (isIdentifier_safeIdentifier text) names

section Names

variable (domain name : String)

@[simp] theorem isIdentifier_attributeName : isIdentifier (attributeName name).toList :=
  isIdentifier_safeIdentifier _

@[simp] theorem isIdentifier_memberName : isIdentifier (memberName domain name).toList :=
  isIdentifier_safeIdentifier _

@[simp] theorem isIdentifier_argsName : isIdentifier (argsName domain name).toList :=
  isIdentifier_safeIdentifier_append _ _ (by decide)

@[simp] theorem isIdentifier_replyName : isIdentifier (replyName domain name).toList :=
  isIdentifier_safeIdentifier_append _ _ (by decide)

@[simp] theorem isIdentifier_eventClientName : isIdentifier (eventClientName domain name).toList :=
  isIdentifier_safeIdentifier_append _ _ (by decide)

theorem isNameChar_argsName : ∀ char ∈ (argsName domain name).toList, isNameChar char :=
  isNameChar_of_mem_append (fun _ => isNameChar_of_mem_memberName) (by decide)

theorem isNameChar_replyName : ∀ char ∈ (replyName domain name).toList, isNameChar char :=
  isNameChar_of_mem_append (fun _ => isNameChar_of_mem_memberName) (by decide)

theorem isNameChar_eventClientName : ∀ char ∈ (eventClientName domain name).toList, isNameChar char :=
  isNameChar_of_mem_append (fun _ => isNameChar_of_mem_memberName) (by decide)

/-- A name with another ending is no reply class. -/
theorem replyName_ne {other : String} (ending : ¬ ['R', 'e', 'p', 'l', 'y'] <:+ other.toList) :
    replyName domain name ≠ other := by
  have others : ∀ known ∈ [other], ¬ "Reply".toList <:+ known.toList :=
    List.forall_mem_singleton.mpr ending
  exact fun same => append_not_mem others (List.mem_singleton.mpr same)

end Names

end ProtocolGen.Naming
