import ProtocolGen.Text.Blank

/-!
# Statements about characters

The kinds of characters by their numbers, and the small and capital forms of letters. What is said of
all or some characters of a text is decided by going through the text. There is a way to decide it for
all characters there are, which takes too long to be run.
-/

set_option autoImplicit false

namespace ProtocolGen.Text

/-- The characters of a text that is written out. A literal is a list of characters by itself, and the
way of its bytes, which a literal takes otherwise, is a long one. -/
@[simp] theorem toList_literal (chars : List Char) :
    String.toList (no_index (String.ofList chars)) = chars := String.toList_ofList

/-! ## Kinds of characters -/

section Kinds

variable {char : Char}

theorem isUpper_iff : char.isUpper ↔ 65 ≤ char.toNat ∧ char.toNat ≤ 90 := decide_eq_true_iff

theorem isLower_iff : char.isLower ↔ 97 ≤ char.toNat ∧ char.toNat ≤ 122 :=
  Bool.and_eq_true_iff.trans (and_congr decide_eq_true_iff decide_eq_true_iff)

theorem isDigit_iff : char.isDigit ↔ 48 ≤ char.toNat ∧ char.toNat ≤ 57 :=
  Bool.and_eq_true_iff.trans (and_congr decide_eq_true_iff decide_eq_true_iff)

theorem isAlpha_iff : char.isAlpha ↔ char.isUpper ∨ char.isLower := Bool.or_eq_true_iff

theorem isAlphanum_iff : char.isAlphanum ↔ char.isAlpha ∨ char.isDigit := Bool.or_eq_true_iff

end Kinds

def blanks : List Char :=
  ['\t', '\n', '\x0b', '\x0c', '\r', '\x1c', '\x1d', '\x1e', '\x1f', ' ', '\u0085', '\u00a0', '\u1680',
    '\u2000', '\u2001', '\u2002', '\u2003', '\u2004', '\u2005', '\u2006', '\u2007', '\u2008', '\u2009',
    '\u200a', '\u2028', '\u2029', '\u202f', '\u205f', '\u3000']

/-- There are no blanks but these. -/
theorem mem_blanks_of_isBlank {char : Char} (blank : isBlank char) : char ∈ blanks := by
  have codes : blanks.map Char.toNat = List.range' 0x09 5 ++ List.range' 0x1C 5 ++
      [0x85, 0xA0, 0x1680] ++ List.range' 0x2000 11 ++ [0x2028, 0x2029, 0x202F, 0x205F, 0x3000] := rfl
  have code : char.toNat ∈ blanks.map Char.toNat := by
    simp only [isBlank, Bool.or_eq_true, Bool.and_eq_true, decide_eq_true_eq, beq_iff_eq] at blank
    simp only [codes, List.mem_append, List.mem_range'_1, List.mem_cons, List.not_mem_nil]
    omega
  obtain ⟨other, member, same⟩ := List.mem_map.mp code
  rwa [← Char.toNat_inj.mp same]

/-- The characters that end a line in some reader of texts. -/
def lineBreaks : List Char :=
  ['\n', '\r', '\x0b', '\x0c', '\x1c', '\x1d', '\x1e', '\u0085', '\u2028', '\u2029']

theorem isBlank_of_mem_lineBreaks : ∀ char ∈ lineBreaks, isBlank char := List.all_eq_true.mp rfl

/-! ## Small letters and capitals -/

section Letters

variable {char : Char}

theorem exists_lowerAscii_eq (upper : char.isUpper) :
    ∃ number < 26, char = Char.ofNat (number + 65) ∧ lowerAscii char = Char.ofNat (number + 97) := by
  obtain ⟨least, most⟩ := isUpper_iff.mp upper
  refine ⟨char.toNat - 65, by omega, ?_, ?_⟩
  · rw [Nat.sub_add_cancel least, Char.ofNat_toNat]
  · rw [lowerAscii, if_pos upper, show char.toNat - 65 + 97 = char.toNat + 32 by omega]

theorem exists_upperAscii_eq (lower : char.isLower) :
    ∃ number < 26, char = Char.ofNat (number + 97) ∧ upperAscii char = Char.ofNat (number + 65) := by
  obtain ⟨least, most⟩ := isLower_iff.mp lower
  refine ⟨char.toNat - 97, by omega, ?_, ?_⟩
  · rw [Nat.sub_add_cancel least, Char.ofNat_toNat]
  · rw [upperAscii, if_pos lower, show char.toNat - 97 + 65 = char.toNat - 32 by omega]

theorem lowerAscii_of_not_isUpper (other : ¬ char.isUpper) : lowerAscii char = char := if_neg other

theorem upperAscii_of_not_isLower (other : ¬ char.isLower) : upperAscii char = char := if_neg other

/-- Of ASCII letters the small form is the library's, which leaves other characters as they are. -/
theorem toLower_eq_lowerAscii (char : Char) : char.toLower = lowerAscii char := by
  have letters : ∀ number < 26, (Char.ofNat (number + 65)).toLower = Char.ofNat (number + 97) := by
    decide
  by_cases upper : char.isUpper
  · obtain ⟨number, range, same, small⟩ := exists_lowerAscii_eq upper
    rw [small, same, letters number range]
  · rw [lowerAscii_of_not_isUpper upper]
    exact dif_neg fun range => upper (isUpper_iff.mpr range)

theorem toUpper_eq_upperAscii (char : Char) : char.toUpper = upperAscii char := by
  have letters : ∀ number < 26, (Char.ofNat (number + 97)).toUpper = Char.ofNat (number + 65) := by
    decide
  by_cases lower : char.isLower
  · obtain ⟨number, range, same, capital⟩ := exists_upperAscii_eq lower
    rw [capital, same, letters number range]
  · rw [upperAscii_of_not_isLower lower]
    exact dif_neg fun range => lower (isLower_iff.mpr range)

end Letters

/-! ## Deciding statements -/

variable {holds : Char → Prop} [DecidablePred holds]

instance decidableForallChars (text : List Char) : Decidable (∀ char ∈ text, holds char) :=
  List.decidableBAll holds text

instance decidableExistsChar (text : List Char) : Decidable (∃ char ∈ text, holds char) :=
  List.decidableBEx holds text

instance decidableForallFirst (first : Option Char) : Decidable (∀ char ∈ first, holds char) :=
  match first with
  | none => isTrue nofun
  | some char => decidable_of_iff (holds char) (by simp)

end ProtocolGen.Text
