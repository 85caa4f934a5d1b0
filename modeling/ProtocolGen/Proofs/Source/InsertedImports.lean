import ProtocolGen.Proofs.Source.ImportScanning

/-!
# Formatting with and without imports

A buffer's text has its import section in whole lines between others. So the text is accepted exactly when
it is accepted without the section and the section asks for no keyword.
-/

set_option autoImplicit false

namespace ProtocolGen.Source

open ProtocolGen.Text

/-! ## Texts of lines -/

/-- Lines with a line feed behind each. -/
def fedLines (lines : List String) : List Char := lines.flatMap fun line => line.toList ++ ['\n']

/-- The last line ends with a character that is no blank. -/
def EndsSolid (lines : List String) : Prop :=
  ∃ front last, lines = front ++ [last] ∧ IsSolid last.toList

theorem fedLines_eq {lines : List String} (full : lines ≠ []) :
    fedLines lines = joinWith ['\n'] (lines.map String.toList) ++ ['\n'] := by
  induction lines with
  | nil => exact absurd rfl full
  | cons line lines ih =>
    by_cases others : lines = []
    · subst others
      rw [fedLines, List.flatMap_singleton]
      rfl
    · have tail := ih others
      rw [fedLines] at tail
      rw [fedLines, List.flatMap_cons, tail, List.map_cons, joinWith_cons _ (by simpa using others)]
      simp

theorem not_mem_fedLines_iff {lines : List String} {char : Char} (other : char ≠ '\n') :
    char ∉ fedLines lines ↔ ∀ line ∈ lines, char ∉ line.toList := by
  simp [fedLines, other]

theorem trimEnd_append (front back : List Char) : trimEnd (front ++ back) =
    if trimEnd back = [] then trimEnd front else front ++ trimEnd back := by
  rw [trimEnd, trimEnd, trimEnd, dropEndWhile, dropEndWhile, dropEndWhile, List.reverse_append,
    List.dropWhile_append]
  by_cases blank : back.reverse.dropWhile isBlank = []
  · rw [if_pos (by simp [blank]), if_pos (by simp [blank])]
  · rw [if_neg (by simpa using blank), if_neg (by simpa using blank), List.reverse_append,
      List.reverse_reverse]

theorem trimEnd_of_isSolid {front line : List Char} (solid : IsSolid line) :
    trimEnd (front ++ line) = front ++ line := by
  obtain ⟨before, last, rfl, notBlank⟩ := solid.ends
  rw [← List.append_assoc, trimEnd, dropEndWhile_eq_rdropWhile, List.rdropWhile_concat_neg _ _ _ notBlank]

namespace Buffer

/-- What is written below lines does not depend on them. -/
theorem exists_tail {body : List String} (full : body ≠ []) :
    ∃ tail, ∀ lines, EndsSolid lines →
      (writtenLines (lines ++ body)).toList = fedLines lines ++ tail := by
  let below := trimEnd (joinWith ['\n'] (body.map String.toList))
  refine ⟨if below = [] then [] else below ++ ['\n'], fun lines ends => ?_⟩
  obtain ⟨front, last, rfl, solid⟩ := ends
  have filled : front ++ [last] ≠ [] := by simp
  have kept : trimEnd (joinWith ['\n'] ((front ++ [last]).map String.toList)) =
      joinWith ['\n'] ((front ++ [last]).map String.toList) := by
    rw [List.map_append, List.map_singleton, joinWith_concat, trimEnd_of_isSolid solid]
  have written : (writtenLines (front ++ [last] ++ body)).toList =
      trimEnd (joinWith ['\n'] ((front ++ [last]).map String.toList) ++
        (['\n'] ++ joinWith ['\n'] (body.map String.toList))) ++ ['\n'] := by
    have feed : "\n".toList = ['\n'] := rfl
    rw [writtenLines, String.toList_ofList, String.toList_intercalate, feed, ← joinWith_eq_intercalate,
      List.map_append, joinWith_append (by simp) (by simpa using full)]
  have feedBelow : trimEnd (['\n'] ++ joinWith ['\n'] (body.map String.toList)) =
      if below = [] then [] else ['\n'] ++ below := trimEnd_append _ _
  rw [written, trimEnd_append, feedBelow, fedLines_eq filled, kept]
  split
  · next blank => simp
  · next dark => simp

end Buffer

/-! ## Unified lines -/

/-- Lines with their ends unified, each with a line feed behind it. -/
def unifiedLines (lines : List String) : List Char :=
  lines.flatMap fun line => unifyLineEnds line.toList ++ ['\n']

theorem unifiedLines_append (lines others : List String) :
    unifiedLines (lines ++ others) = unifiedLines lines ++ unifiedLines others :=
  List.flatMap_append

theorem unifyLineEnds_fedLines {lines : List String}
    (ends : ∀ line ∈ lines, line.toList.getLast? ≠ some '\r') (tail : List Char) :
    unifyLineEnds (fedLines lines ++ tail) = unifiedLines lines ++ unifyLineEnds tail := by
  induction lines with
  | nil => rfl
  | cons line lines ih =>
    obtain ⟨first, others⟩ := List.forall_mem_cons.mp ends
    have shape : fedLines (line :: lines) ++ tail =
        line.toList ++ ('\n' :: (fedLines lines ++ tail)) := by
      simp [fedLines]
    have unified : unifiedLines (line :: lines) =
        unifyLineEnds line.toList ++ ('\n' :: unifiedLines lines) := by
      simp [unifiedLines]
    rw [shape, unifyLineEnds_append fun last => absurd last first, unifyLineEnds_cons (by decide),
      ih others, unified, List.append_assoc, List.cons_append]

/-- Lines without carriage returns are unified already. -/
theorem unifiedLines_of_not_mem {lines : List String} (absent : ∀ line ∈ lines, '\r' ∉ line.toList) :
    unifiedLines lines = fedLines lines := by
  refine List.flatMap_congr fun line member => ?_
  rw [unifyLineEnds_of_not_mem (absent line member)]

namespace Buffer

/-! ## Lines above the imports -/

/-- A buffer whose docstring, when it has one that is written, ends plainly. -/
def EndsHeading (buffer : Buffer) : Prop :=
  ∀ docstring, buffer.heading.join = some docstring → docstring ≠ "" → EndsPlainly docstring.toList

theorem exists_reads_headingLines {buffer : Buffer} (ends : buffer.EndsHeading) :
    ∃ begun logical, Scanner.Reads false begun (unifiedLines buffer.headingLines) logical ∧
      ∀ statement ∈ logical, ImportsWell statement := by
  unfold headingLines
  split
  · exact ⟨false, [], Scanner.reads_nil, List.forall_mem_nil _⟩
  · next docstring given =>
    split
    · exact ⟨false, [], Scanner.reads_nil, List.forall_mem_nil _⟩
    · next written =>
      have plain := ends docstring given (by simpa using written)
      have whole : ImportsWell [.string] := by
        intro statement member
        rw [List.mem_singleton.mp member]
        rfl
      refine ⟨true, [[.string]], ?_, List.forall_mem_singleton.mpr whole⟩
      rw [unifiedLines, List.flatMap_singleton, String.toList_ofList]
      exact reads_docstring plain

def futurePath : ModulePath := ⟨false, ["__future__"], by decide, by decide⟩

def futureLine : String := "from __future__ import annotations"

theorem isAsked_futureLine :
    IsAsked [.require futurePath.text ["annotations"]] futurePath futureLine := by
  have importable : ∀ name ∈ ["annotations"], IsImportable name := by decide
  exact .taking (List.cons_ne_nil _ _) importable List.mem_cons_self

/-- The lines above the imports are read whole, and the imports among them are well formed. -/
theorem exists_reads_linesAbove {buffer : Buffer} (ends : buffer.EndsHeading) :
    ∃ logical, Scanner.Reads false true (unifiedLines buffer.linesAbove) logical ∧
      ∀ statement ∈ logical, ImportsWell statement := by
  obtain ⟨begun, heading, headingRead, headingWell⟩ := exists_reads_headingLines ends
  have asked := isAsked_futureLine
  obtain ⟨future, spelled, well⟩ := asked.exists_statement
  have futureWell : ImportsWell future := well.mpr (asked.isImport_iff.mpr (by decide))
  have bannerRead : Scanner.Reads false false (unifyLineEnds banner.toList ++ ['\n']) [] := ⟨1, [], rfl, rfl⟩
  have shape : unifiedLines buffer.linesAbove = (unifyLineEnds banner.toList ++ ['\n']) ++
      (unifiedLines buffer.headingLines ++
        (['\n'] ++ (futureLine.toList ++ ['\n']))) := by
    have future : unifyLineEnds futureLine.toList = futureLine.toList := rfl
    have last : unifiedLines ["", futureLine] = ['\n'] ++ (futureLine.toList ++ ['\n']) := by
      simp [unifiedLines, future, unifyLineEnds_nil]
    rw [linesAbove, List.cons_append, ← last]
    simp [unifiedLines, futureLine]
  refine ⟨heading ++ [future], ?_, ?_⟩
  · rw [shape]
    exact bannerRead.append (headingRead.append
      (Scanner.reads_feed.append (Scanner.reads_of_readsAs spelled)))
  · exact List.forall_mem_append.mpr ⟨headingWell, List.forall_mem_singleton.mpr futureWell⟩

theorem endsSolid_linesAbove (buffer : Buffer) : EndsSolid buffer.linesAbove := by
  have asked := isAsked_futureLine
  refine ⟨banner :: buffer.headingLines ++ [""], futureLine, ?_, asked.isSolid⟩
  rw [linesAbove, List.append_assoc]
  rfl

theorem getLast?_of_mem_headingLines {buffer : Buffer} {line : String}
    (member : line ∈ buffer.headingLines) : line.toList.getLast? = some '"' := by
  unfold headingLines at member
  split at member
  · cases member
  · split at member
    · cases member
    · rw [List.mem_singleton.mp member, String.toList_ofList, List.getLast?_append]
      rfl

theorem getLast?_of_mem_linesAbove {buffer : Buffer} :
    ∀ line ∈ buffer.linesAbove, line.toList.getLast? ≠ some '\r' := by
  have fixed : ∀ line ∈ [banner, "", futureLine], line.toList.getLast? ≠ some '\r' := by decide
  obtain ⟨first, others⟩ := List.forall_mem_cons.mp fixed
  refine List.forall_mem_cons.mpr ⟨first, List.forall_mem_append.mpr ⟨fun line member => ?_, others⟩⟩
  rw [getLast?_of_mem_headingLines member]
  decide

/-! ## The import section -/

/-- A text is accepted below whole lines. -/
def AcceptsBelow (tail : List Char) : Prop :=
  nullCharacter ∉ tail ∧ ∃ found, lexemesBelow? tail = some found ∧ ImportsWell found

/-- A text in whole lines above others is accepted exactly when its imports are well formed and the text
below it is accepted. -/
theorem accepts_writtenLines_iff {lines body : List String} {tail : List Char}
    {logical : List (List Lexeme)} (written : (writtenLines (lines ++ body)).toList = fedLines lines ++ tail)
    (reads : Scanner.Reads false true (unifiedLines lines) logical)
    (ends : ∀ line ∈ lines, line.toList.getLast? ≠ some '\r') :
    Accepts format (writtenLines (lines ++ body)) ↔
      ((∀ line ∈ lines, NullFree line) ∧ ∀ statement ∈ logical, ImportsWell statement) ∧
        AcceptsBelow tail := by
  have scanned : lexemes? (fedLines lines ++ tail) = (lexemesBelow? tail).map fun found =>
      (logical.flatMap fun line => line ++ [.lineEnd]) ++ found :=
    lexemes?_of_reads reads (unifyLineEnds_fedLines ends tail)
  have nullFree : NullFree (writtenLines (lines ++ body)) ↔
      (∀ line ∈ lines, NullFree line) ∧ nullCharacter ∉ tail := by
    rw [NullFree, written, List.mem_append, not_or, not_mem_fedLines_iff (by decide)]
    rfl
  have imports : (∃ found, lexemes? (fedLines lines ++ tail) = some found ∧ ImportsWell found) ↔
      (∀ statement ∈ logical, ImportsWell statement) ∧
        ∃ found, lexemesBelow? tail = some found ∧ ImportsWell found := by
    rw [scanned]
    cases lexemesBelow? tail <;> simp [importsWell_logical_iff]
  rw [accepts_format_iff, nullFree, written, imports, and_and_and_comm, AcceptsBelow]

section Imports

variable {runtimeModule : String} {edits : List Edit} (plain : AsksPlainly edits)

include plain

theorem endsSolid_setOff (buffer : Buffer) :
    EndsSolid (buffer.linesAbove ++ setOff ((new runtimeModule).applyAll edits).importLines) := by
  by_cases none : ((new runtimeModule).applyAll edits).importLines = []
  · simpa [none, setOff] using endsSolid_linesAbove buffer
  · obtain ⟨front, last, path, shape, asked⟩ := exists_last_importLine plain none
    rw [setOff, if_neg (by simpa using none), shape]
    exact ⟨buffer.linesAbove ++ "" :: front, last, by simp, asked.isSolid⟩

theorem not_mem_setOff {char : Char} (other : char ∈ [nullCharacter, '\n', '\r']) :
    ∀ line ∈ setOff ((new runtimeModule).applyAll edits).importLines, char ∉ line.toList := by
  have empty : char ∉ "".toList := List.not_mem_nil
  have each : ∀ line ∈ ((new runtimeModule).applyAll edits).importLines, char ∉ line.toList := by
    intro line member
    rcases isAsked_of_mem_importLines plain member with rfl | ⟨path, asked⟩
    · exact empty
    · exact asked.not_mem other
  unfold setOff
  split
  · exact List.forall_mem_nil _
  · exact List.forall_mem_cons.mpr ⟨empty, each⟩

/-- The lines of the import section are read whole. Their imports are well formed exactly when none is
asked for with a keyword. -/
theorem exists_reads_setOff :
    ∃ logical, Scanner.Reads true true
        (fedLines (setOff ((new runtimeModule).applyAll edits).importLines)) logical ∧
      ((∀ statement ∈ logical, ImportsWell statement) ↔ ¬ AsksForKeyword edits) := by
  have each : ∀ line ∈ ((new runtimeModule).applyAll edits).importLines,
      line = "" ∨ ∃ statement, ReadsAs line statement ∧ (ImportsWell statement ↔ IsImport line) := by
    intro line member
    refine (isAsked_of_mem_importLines plain member).imp_right ?_
    rintro ⟨path, asked⟩
    exact asked.exists_statement
  obtain ⟨logical, reads, mem_iff⟩ := Scanner.exists_reads_of_lines fun line member =>
    (each line member).imp_right fun ⟨statement, spelled, _⟩ => ⟨statement, spelled⟩
  refine ⟨logical, ?_, ?_⟩
  · unfold setOff
    split
    · next none =>
      rw [List.isEmpty_iff.mp none] at reads
      exact reads
    · exact Scanner.reads_feed.append reads
  · have imports : (∀ line ∈ ((new runtimeModule).applyAll edits).importLines,
        line = "" ∨ IsImport line) ↔ ¬ AsksForKeyword edits := forall_isImport_iff plain
    rw [← imports]
    constructor
    · intro well line member
      refine (each line member).imp_right ?_
      rintro ⟨statement, spelled, statementWell⟩
      exact statementWell.mp (well statement ((mem_iff statement).mpr ⟨line, member, spelled⟩))
    · intro imports statement member
      obtain ⟨line, inLines, spelled⟩ := (mem_iff statement).mp member
      rcases each line inLines with rfl | ⟨other, otherSpelled, statementWell⟩
      · exact absurd spelled (not_readsAs_empty statement)
      · rw [otherSpelled.iff_eq.mp spelled]
        rcases imports line inLines with rfl | isImport
        · exact absurd spelled (not_readsAs_empty statement)
        · exact statementWell.mpr isImport

/-- A text with imports is accepted exactly when it is without them and none is asked for with a
keyword. -/
theorem accepts_render_iff (ends : ((new runtimeModule).applyAll edits).EndsHeading) :
    Accepts format ((new runtimeModule).applyAll edits).render ↔
      Accepts format ((new runtimeModule).applyAll (edits.filter fun edit => !edit.isRequire)).render ∧
        ¬ AsksForKeyword edits := by
  let buffer := (new runtimeModule).applyAll edits
  obtain ⟨tail, written⟩ := exists_tail (List.cons_ne_nil "" ("" :: buffer.bodyLines))
  obtain ⟨above, aboveRead, aboveWell⟩ := exists_reads_linesAbove ends
  have imports : ∃ logical, Scanner.Reads true true (fedLines (setOff buffer.importLines)) logical ∧
      ((∀ statement ∈ logical, ImportsWell statement) ↔ ¬ AsksForKeyword edits) :=
    exists_reads_setOff plain
  obtain ⟨imported, importedRead, importedWell⟩ := imports
  have nullFree : ∀ line ∈ setOff buffer.importLines, NullFree line :=
    not_mem_setOff plain List.mem_cons_self
  have noReturn : ∀ line ∈ setOff buffer.importLines, '\r' ∉ line.toList :=
    not_mem_setOff plain (by simp)
  have noReturnAtEnd : ∀ line ∈ setOff buffer.importLines, line.toList.getLast? ≠ some '\r' :=
    fun line member last => noReturn line member (List.mem_of_getLast? last)
  have whole := accepts_writtenLines_iff (written _ (endsSolid_setOff plain buffer))
    (by
      rw [unifiedLines_append, unifiedLines_of_not_mem noReturn]
      exact aboveRead.append importedRead)
    (List.forall_mem_append.mpr ⟨getLast?_of_mem_linesAbove, noReturnAtEnd⟩)
  have bare := accepts_writtenLines_iff (written _ (endsSolid_linesAbove buffer)) aboveRead
    getLast?_of_mem_linesAbove
  rw [render_eq, render_without_requires, whole, bare, List.forall_mem_append, List.forall_mem_append,
    importedWell, and_iff_left nullFree, ← and_assoc, and_right_comm]

end Imports

end Buffer

end ProtocolGen.Source
