import ProtocolGen.Proofs.Source.ImportStatements

/-!
# Scanning from the head of a line

What a scanner does from the head of a line on does not depend on what it read above, but for the lines
that it counts.
-/

set_option autoImplicit false

namespace ProtocolGen.Source

open ProtocolGen.Text

def Located.below (lines : Nat) (located : Located) : Located :=
  ⟨located.lexeme, lines + located.line⟩

theorem ReadsAs.iff_eq {line : String} {statement other : List Lexeme} (reads : ReadsAs line statement) :
    ReadsAs line other ↔ other = statement := by
  constructor
  · intro otherReads
    obtain ⟨located, read, found⟩ := reads.exists_lexemes
    obtain ⟨otherLocated, otherRead, otherFound⟩ := otherReads.exists_lexemes
    cases read.symm.trans otherRead
    exact (List.append_cancel_right (found.symm.trans otherFound)).symm
  · rintro rfl
    exact reads

theorem not_readsAs_empty (statement : List Lexeme) : ¬ ReadsAs "" statement := by
  intro reads
  obtain ⟨located, read, found⟩ := reads.exists_lexemes
  have nothing : lexemes "".toList = .ok [] := rfl
  cases nothing.symm.trans read
  exact absurd found (by simp)

namespace Scanner

/-- A function passes over a choice between two results. -/
theorem ite_map {Result Other Fault : Type} {condition : Prop} [Decidable condition]
    {change : Result → Other} {first second : Except Fault Result} {left right : Except Fault Other}
    (onTrue : left = first.map change) (onFalse : right = second.map change) :
    (if condition then left else right) = (if condition then first else second).map change := by
  split
  · exact onTrue
  · exact onFalse

section Below

variable (lines : Nat) (above : List Located) (scanner : Scanner)

/-- A scanner that read other lines above, with the lexemes found there in reverse. -/
def below : Scanner :=
  { scanner with
    line := lines + scanner.line, found := scanner.found.map (Located.below lines) ++ above }

theorem endLine_below :
    (scanner.below lines above).endLine = scanner.endLine.below lines above := by
  by_cases owing : scanner.owed.isEmpty <;> by_cases begun : scanner.lineBegun <;>
    simp [endLine, below, owing, begun, Located.below, Nat.add_assoc]

theorem between_below (char : Char) : (scanner.below lines above).between char =
    (scanner.between char).map (below lines above) := by
  rw [between, between]
  refine ite_map (congrArg Except.ok (endLine_below lines above scanner)) ?_
  refine ite_map rfl (ite_map rfl (ite_map rfl (ite_map rfl (ite_map rfl (ite_map rfl ?_)))))
  cases closingOf? char with
  | some closing => exact ite_map rfl rfl
  | none =>
    refine ite_map ?_ (ite_map rfl rfl)
    have owed : (scanner.below lines above).owed = scanner.owed := rfl
    rw [owed]
    cases scanner.owed with
    | nil => rfl
    | cons closing rest => exact ite_map rfl rfl

theorem margin_below (indented : Bool) (char : Char) :
    (scanner.below lines above).margin indented char =
      (scanner.margin indented char).map (below lines above) := by
  have same := between_below lines above scanner char
  rw [margin, margin]
  exact ite_map rfl (ite_map rfl (ite_map same (ite_map rfl same)))

theorem short_below (quote : Char) (escaped : Bool) (char : Char) :
    (scanner.below lines above).short quote escaped char =
      (scanner.short quote escaped char).map (below lines above) := by
  rw [short, short]
  refine ite_map ?_ (ite_map rfl (ite_map rfl (ite_map rfl rfl)))
  by_cases feed : char == '\n' <;> simp [feed, below, Except.map, Nat.add_assoc]

theorem long_below (quote : Char) (closing : Nat) (escaped : Bool) (char : Char) :
    (scanner.below lines above).long quote closing escaped char =
      (scanner.long quote closing escaped char).map (below lines above) := by
  have counted : (if char == '\n' then
      { scanner.below lines above with line := (scanner.below lines above).line + 1 }
        else scanner.below lines above) =
      (if char == '\n' then { scanner with line := scanner.line + 1 } else scanner).below lines above := by
    split <;> rfl
  rw [long, long, counted]
  exact ite_map rfl (ite_map rfl (ite_map (ite_map rfl rfl) rfl))

theorem step_below (char : Char) : (scanner.below lines above).step char =
    (scanner.step char).map (below lines above) := by
  have mode : (scanner.below lines above).mode = scanner.mode := rfl
  rw [step, step, mode]
  cases scanner.mode with
  | between => exact between_below lines above scanner char
  | margin indented => exact margin_below lines above scanner indented char
  | name reversed =>
    exact ite_map rfl
      (between_below lines above (scanner.emit (.name reversed.reverse) .between) char)
  | number => exact ite_map rfl (between_below lines above (scanner.emit .number .between) char)
  | comment => exact ite_map (congrArg Except.ok (endLine_below lines above scanner)) rfl
  | joining => exact ite_map rfl rfl
  | opening quote count =>
    exact ite_map (ite_map rfl rfl) (ite_map (short_below lines above scanner quote false char)
      (between_below lines above (scanner.emit .string .between) char))
  | short quote escaped => exact short_below lines above scanner quote escaped char
  | long quote closing escaped => exact long_below lines above scanner quote closing escaped char

/-- A run below other lines is the run of itself, moved by them. -/
theorem run_below (chars : List Char) : (scanner.below lines above).run chars =
    (scanner.run chars).map (below lines above) := by
  induction chars generalizing scanner with
  | nil => rfl
  | cons char chars ih =>
    rw [run_cons, run_cons, step_below]
    cases scanner.step char with
    | error refusal => rfl
    | ok next => exact ih next

theorem finish_below : (scanner.below lines above).finish =
    scanner.finish.map fun found => above.reverse ++ found.map (Located.below lines) := by
  have finished : (scanner.below lines above).found.reverse =
      above.reverse ++ scanner.found.reverse.map (Located.below lines) := by
    rw [below, List.reverse_append, List.map_reverse]
  have mode : (scanner.below lines above).mode = scanner.mode := rfl
  have owed : (scanner.below lines above).owed = scanner.owed := rfl
  simp only [finish, mode, owed, finished]
  split
  · rfl
  · rfl
  · rfl
  · exact ite_map rfl rfl

theorem below_below (more : Nat) (found : List Located) :
    (scanner.below more found).below lines above =
      scanner.below (lines + more) (found.map (Located.below lines) ++ above) := by
  have moved : Located.below lines ∘ Located.below more = Located.below (lines + more) := by
    funext located
    simp [Located.below, Nat.add_assoc]
  simp [below, Nat.add_assoc, moved]

end Below

/-! ## Whole lines -/

/-- Characters that lead from the head of one line to the head of another, with the logical lines that
they hold. -/
def Reads (before after : Bool) (chars : List Char) (logical : List (List Lexeme)) : Prop :=
  ∃ lines found, (atHead before).run chars = .ok ((atHead after).below lines found) ∧
    found.reverse.map Located.lexeme = logical.flatMap fun line => line ++ [.lineEnd]

section Reads

variable {before middle after : Bool} {chars others : List Char} {logical more : List (List Lexeme)}

theorem reads_nil : Reads before before [] [] :=
  ⟨0, [], rfl, rfl⟩

theorem Reads.append (first : Reads before middle chars logical) (second : Reads middle after others more) :
    Reads before after (chars ++ others) (logical ++ more) := by
  obtain ⟨lines, found, ran, read⟩ := first
  obtain ⟨otherLines, otherFound, otherRan, otherRead⟩ := second
  refine ⟨lines + otherLines, otherFound.map (Located.below lines) ++ found, ?_, ?_⟩
  · rw [run_append_of_run _ ran, run_below, otherRan, ← below_below]
    rfl
  · have same : Located.lexeme ∘ Located.below lines = Located.lexeme := rfl
    rw [List.reverse_append, List.map_append, read, ← List.map_reverse, List.map_map, same, otherRead,
      List.flatMap_append]

theorem reads_feed : Reads before before ['\n'] [] := ⟨1, [], rfl, rfl⟩

/-- A line that is spelled by pieces is one logical line. -/
theorem reads_of_readsAs {line : String} {statement : List Lexeme} (reads : ReadsAs line statement) :
    Reads before true (line.toList ++ ['\n']) [statement] := by
  obtain ⟨pieces, chars, follow, rfl, notEmpty⟩ := reads
  obtain ⟨middle, final, ran, behind⟩ := (behind_atHead before).run_pieces follow
  obtain ⟨reached, stepped, mode, owed, lineBegun, textBegun, found⟩ := behind.step_feed notEmpty
  have shape : reached = (atHead true).below reached.line reached.found := by
    cases reached
    simp_all [below, atHead]
  refine ⟨reached.line, reached.found, ?_, by simpa using found⟩
  rw [chars, run_append_of_run _ ran, run_cons_of_step _ stepped, ← shape]
  rfl

/-- Lines that are empty or spelled by pieces are the logical lines of those that are not empty. -/
theorem exists_reads_of_lines {lines : List String}
    (each : ∀ line ∈ lines, line = "" ∨ ∃ statement, ReadsAs line statement) :
    ∃ logical, Reads true true (lines.flatMap fun line => line.toList ++ ['\n']) logical ∧
      ∀ statement, statement ∈ logical ↔ ∃ line ∈ lines, ReadsAs line statement := by
  induction lines with
  | nil => exact ⟨[], reads_nil, by simp⟩
  | cons line lines ih =>
    obtain ⟨first, others⟩ := List.forall_mem_cons.mp each
    obtain ⟨logical, reads, mem_iff⟩ := ih others
    rcases first with rfl | ⟨statement, spelled⟩
    · refine ⟨logical, reads_feed.append reads, fun statement => ?_⟩
      rw [mem_iff, List.exists_mem_cons_iff, or_iff_right (not_readsAs_empty statement)]
    · refine ⟨statement :: logical, (reads_of_readsAs spelled).append reads, fun other => ?_⟩
      rw [List.mem_cons, mem_iff, List.exists_mem_cons_iff, spelled.iff_eq]

end Reads

end Scanner

end ProtocolGen.Source
