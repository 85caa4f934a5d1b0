import ProtocolGen.Proofs.Source.ImportKeywords
import ProtocolGen.Proofs.Source.LongLiterals
import ProtocolGen.Proofs.Source.NullCharacters
import ProtocolGen.Proofs.Text.Filling

/-!
# What imports change for a formatter

The import section stands in whole lines between others. So a text is accepted exactly when it is accepted
without the section and each line of the section is an import statement.
-/

set_option autoImplicit false

namespace ProtocolGen.Source

open ProtocolGen.Text

/-! ## Accepted texts -/

/-- A formatter takes a text to its final form. -/
def Accepts (formatter : Formatter) (text : String) : Prop := ∃ formatted, formatter text = .ok formatted

/-- The lexemes of a text that can be scanned. -/
def lexemes? (text : List Char) : Option (List Lexeme) :=
  (lexemes text).toOption.map fun located => located.map Located.lexeme

/-- A text is accepted when it has no null character and can be scanned, and its imports are well formed. -/
theorem accepts_format_iff {text : String} : Accepts format text ↔
    NullFree text ∧ ∃ found, lexemes? text.toList = some found ∧ ImportsWell found := by
  have free : text.toList.contains '\x00' ↔ ¬ NullFree text := by
    rw [List.contains_iff_mem, NullFree, not_not]
    rfl
  rw [Accepts, format]
  by_cases null : NullFree text
  · rw [if_neg (mt free.mp (not_not_intro null)), refusal?, and_iff_right null, lexemes?]
    cases lexemes text.toList with
    | error fault => simp [Except.toOption]
    | ok located =>
      simp only [Except.toOption, Option.map_some, Option.some.injEq, exists_eq_left',
        ← badImport?_eq_none_iff]
      cases badImport? located <;> simp
  · rw [if_pos (free.mpr null)]
    simp [null]

/-! ## Scanning below whole lines -/

/-- The lexemes of a text from the head of a line on, in which a lexeme was seen already. -/
def lexemesBelow? (tail : List Char) : Option (List Lexeme) :=
  ((Scanner.atHead true).run (unifyLineEnds tail ++ ['\n']) >>= Scanner.finish).toOption.map
    fun located => located.map Located.lexeme

/-- A step that tells on which line it fails. -/
def placedStep (scanner : Scanner) (char : Char) : Except (Nat × Refusal) Scanner :=
  (scanner.step char).mapError fun refusal => (scanner.line, refusal)

theorem toOption_foldlM_placedStep (scanner : Scanner) (chars : List Char) :
    (chars.foldlM placedStep scanner).toOption = (scanner.run chars).toOption := by
  induction chars generalizing scanner with
  | nil => rfl
  | cons char chars ih =>
    rw [List.foldlM_cons, Scanner.run_cons, placedStep]
    cases scanner.step char with
    | error refusal => rfl
    | ok next => exact ih next

theorem toOption_lexemes (text : List Char) : (lexemes text).toOption =
    (Scanner.start.run (unifyLineEnds text ++ ['\n']) >>= Scanner.finish).toOption := by
  have same := toOption_foldlM_placedStep Scanner.start (unifyLineEnds text ++ ['\n'])
  unfold lexemes
  dsimp only
  split
  · next fault failed =>
    have placed : (unifyLineEnds text ++ ['\n']).foldlM placedStep Scanner.start = .error fault := failed
    cases ran : Scanner.start.run (unifyLineEnds text ++ ['\n']) with
    | error refusal => rfl
    | ok reached =>
      rw [placed, ran] at same
      cases same
  · next scanner folded =>
    have placed : (unifyLineEnds text ++ ['\n']).foldlM placedStep Scanner.start = .ok scanner := folded
    cases ran : Scanner.start.run (unifyLineEnds text ++ ['\n']) with
    | error refusal =>
      rw [placed, ran] at same
      cases same
    | ok reached =>
      rw [placed, ran] at same
      cases same
      change (scanner.finish.mapError _).toOption = scanner.finish.toOption
      cases scanner.finish <;> rfl

/-- A text below whole lines is scanned as it is alone, behind the logical lines that they hold. -/
theorem lexemes?_of_reads {text front tail : List Char} {logical : List (List Lexeme)}
    (reads : Scanner.Reads false true front logical)
    (unified : unifyLineEnds text = front ++ unifyLineEnds tail) :
    lexemes? text = (lexemesBelow? tail).map fun found =>
      (logical.flatMap fun line => line ++ [.lineEnd]) ++ found := by
  obtain ⟨lines, found, ran, read⟩ := reads
  have begun : Scanner.start = (Scanner.atHead false).below 1 [] := rfl
  have above : Scanner.start.run front =
      .ok ((Scanner.atHead true).below (1 + lines) (found.map (Located.below 1) ++ [])) := by
    rw [begun, Scanner.run_below, ran, ← Scanner.below_below]
    rfl
  rw [lexemes?, lexemesBelow?, toOption_lexemes, unified, List.append_assoc,
    Scanner.run_append_of_run _ above, Scanner.run_below]
  cases (Scanner.atHead true).run (unifyLineEnds tail ++ ['\n']) with
  | error refusal => rfl
  | ok reached =>
    change ((reached.below _ _).finish.toOption.map _) = (reached.finish.toOption.map _).map _
    rw [Scanner.finish_below]
    cases reached.finish with
    | error refusal => rfl
    | ok rest =>
      have same : Located.lexeme ∘ Located.below (1 + lines) = Located.lexeme := rfl
      have moved : Located.lexeme ∘ Located.below 1 = Located.lexeme := rfl
      simp [Except.map, Except.toOption, ← read, List.map_reverse, same, moved]

theorem importsWell_logical_iff {logical : List (List Lexeme)} {found : List Lexeme} :
    ImportsWell ((logical.flatMap fun line => line ++ [.lineEnd]) ++ found) ↔
      (∀ line ∈ logical, ImportsWell line) ∧ ImportsWell found := by
  induction logical with
  | nil => simp
  | cons line logical ih =>
    rw [List.flatMap_cons, List.append_assoc, List.append_assoc, List.singleton_append,
      importsWell_lineEnd_iff, ih, List.forall_mem_cons, and_assoc]

/-! ## Lines of import sections -/

theorem importsWell_iff_of_single {statement : List Lexeme}
    (single : ∀ lexeme ∈ statement, ¬ endsStatement lexeme) :
    ImportsWell statement ↔ isAcceptable statement := by
  have whole (begun : List Lexeme) : statementsFrom begun statement = [begun.reverse ++ statement] := by
    induction statement generalizing begun with
    | nil => rw [statementsFrom, List.append_nil]
    | cons lexeme statement ih =>
      obtain ⟨first, others⟩ := List.forall_mem_cons.mp single
      rw [statementsFrom, if_neg first, ih others, List.reverse_cons, List.append_assoc,
        List.singleton_append]
  rw [ImportsWell, whole]
  exact List.forall_mem_singleton

theorem mem_marked {char : Char} {names : List String} {lexeme : Lexeme}
    (member : lexeme ∈ marked char names) : lexeme = .mark char ∨ ∃ name, lexeme = .word name := by
  rcases mem_of_mem_intercalate member with between | ⟨lexemes, inNames, inLexemes⟩
  · exact .inl (List.mem_singleton.mp between)
  · obtain ⟨name, -, rfl⟩ := List.mem_map.mp inNames
    exact .inr ⟨name, List.mem_singleton.mp inLexemes⟩

section Lines

variable {path : ModulePath} {names : List String} {edits : List Edit} {line : String}

theorem not_endsStatement_word (name : String) : ¬ endsStatement (.word name) := by
  simp [endsStatement]

theorem not_endsStatement_marked {char : Char} (other : char ≠ ';') :
    ∀ lexeme ∈ marked char names, ¬ endsStatement lexeme := by
  intro lexeme member
  rcases mem_marked member with rfl | ⟨name, rfl⟩
  · simpa [endsStatement] using other
  · exact not_endsStatement_word name

theorem not_endsStatement_path : ∀ lexeme ∈ path.lexemes, ¬ endsStatement lexeme := by
  intro lexeme member
  rcases List.mem_append.mp member with dot | part
  · cases near : path.near <;> rw [near] at dot
    · cases dot
    · rw [List.mem_singleton.mp dot]
      decide
  · exact not_endsStatement_marked (by decide) lexeme part

/-- The line of a module is one logical line, whose imports are well formed when it is an import. -/
theorem IsAsked.exists_statement (asked : IsAsked edits path line) :
    ∃ statement, ReadsAs line statement ∧ (ImportsWell statement ↔ IsImport line) := by
  cases asked with
  | whole undotted =>
    have single : ∀ lexeme ∈ wholeStatement path, ¬ endsStatement lexeme :=
      List.forall_mem_cons.mpr ⟨not_endsStatement_word _, not_endsStatement_path⟩
    refine ⟨_, readsAs_wholeLine, (importsWell_iff_of_single single).trans ?_⟩
    exact (isAcceptable_wholeStatement_iff undotted).trans (isImport_wholeLine_iff undotted).symm
  | @taking names _ full importable =>
    have single : ∀ lexeme ∈ takingStatement path names, ¬ endsStatement lexeme := by
      refine List.forall_mem_cons.mpr ⟨not_endsStatement_word _, List.forall_mem_append.mpr
        ⟨not_endsStatement_path, List.forall_mem_cons.mpr ⟨not_endsStatement_word _, ?_⟩⟩⟩
      exact not_endsStatement_marked (by decide)
    refine ⟨_, readsAs_importLine full fun name member => (importable name member).1,
      (importsWell_iff_of_single single).trans ?_⟩
    exact (isAcceptable_takingStatement_iff full fun name member => (importable name member).2).trans
      (isImport_importLine_iff full importable).symm

theorem isWord_of_isIdentifier {name : List Char} (identifier : isIdentifier name) : IsWord name := by
  refine ⟨?_, fun char member => ?_⟩
  · rintro rfl
    cases identifier
  · by_contra blank
    exact Naming.not_mem_of_isIdentifier
      (Naming.not_isIdentifierContinue_of_isBlank (Bool.eq_true_of_not_eq_false blank)) identifier member

/-- Characters of which lines of imports are made. -/
def IsImportChar (char : Char) : Prop := isIdentifierContinue char ∨ char ∈ ['.', ',', ' ']

theorem isImportChar_of_mem_joined {separator : String} {texts : List String}
    (between : ∀ char ∈ separator.toList, IsImportChar char)
    (each : ∀ text ∈ texts, isIdentifier text.toList) :
    ∀ char ∈ (separator.intercalate texts).toList, IsImportChar char := by
  intro char member
  rw [String.toList_intercalate] at member
  rcases mem_of_mem_intercalate member with inSeparator | ⟨chars, inTexts, inChars⟩
  · exact between char inSeparator
  · obtain ⟨text, found, rfl⟩ := List.mem_map.mp inTexts
    by_contra other
    exact Naming.not_mem_of_isIdentifier (not_or.mp other).1 (each text found) inChars

theorem isImportChar_of_mem_text : ∀ char ∈ path.text.toList, IsImportChar char := by
  rw [ModulePath.text, String.toList_append]
  refine List.forall_mem_append.mpr ⟨?_, isImportChar_of_mem_joined ?_ path.identifiers⟩
  · cases path.near
    · exact List.forall_mem_nil _
    · exact List.forall_mem_singleton.mpr (.inr List.mem_cons_self)
  · exact List.forall_mem_singleton.mpr (.inr List.mem_cons_self)

theorem isImportChar_of_mem_literal {text : String} (plain : text.toList.all fun char =>
    isIdentifierContinue char || ['.', ',', ' '].contains char) :
    ∀ char ∈ text.toList, IsImportChar char := by
  intro char member
  simpa [IsImportChar] using List.all_eq_true.mp plain char member

theorem IsAsked.isImportChar (asked : IsAsked edits path line) : ∀ char ∈ line.toList, IsImportChar char := by
  cases asked with
  | whole =>
    rw [wholeLine, String.toList_append]
    exact List.forall_mem_append.mpr ⟨isImportChar_of_mem_literal (by decide), isImportChar_of_mem_text⟩
  | @taking names _ full importable =>
    rw [importLine, String.toList_append, String.toList_append, String.toList_append]
    refine List.forall_mem_append.mpr ⟨List.forall_mem_append.mpr ⟨List.forall_mem_append.mpr
      ⟨isImportChar_of_mem_literal (by decide), isImportChar_of_mem_text⟩,
      isImportChar_of_mem_literal (by decide)⟩, ?_⟩
    exact isImportChar_of_mem_joined (isImportChar_of_mem_literal (by decide))
      fun name member => (importable name member).1

theorem IsAsked.not_mem (asked : IsAsked edits path line) {char : Char}
    (other : char ∈ [nullCharacter, '\n', '\r']) : char ∉ line.toList := by
  have none : ∀ char ∈ [nullCharacter, '\n', '\r'],
      ¬ isIdentifierContinue char ∧ char ∉ ['.', ',', ' '] := by decide
  intro member
  rcases asked.isImportChar char member with continues | between
  · exact (none char other).1 continues
  · exact (none char other).2 between

theorem IsAsked.isSolid (asked : IsAsked edits path line) : IsSolid line.toList := by
  cases asked with
  | whole undotted =>
    have parts : IsSolid (".".intercalate path.parts).toList :=
      isSolid_intercalate (by decide) (path.notEmpty.resolve_left undotted) fun part member =>
        isWord_of_isIdentifier (path.identifiers part member)
    rw [wholeLine, ModulePath.text, if_neg undotted, String.empty_append]
    exact isSolid_append (by decide) parts
  | @taking names _ full importable asked =>
    refine isSolid_importLine ?_ full fun name member =>
      isWord_of_isIdentifier (importable name member).1
    intro feed
    rcases isImportChar_of_mem_text '\n' feed with continues | between
    · exact absurd continues (by decide)
    · exact absurd between (by decide)

end Lines

end ProtocolGen.Source
