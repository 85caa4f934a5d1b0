import ProtocolGen.Proofs.Source.Resumption
import ProtocolGen.Proofs.Source.TripleQuotes

/-!
# Scanning literals in triple quotes

A literal in triple quotes that can be read is scanned to its end. So is an escaped text that does not end
in a quote, whatever is in it.
-/

set_option autoImplicit false

namespace ProtocolGen.Source

open ProtocolGen.Text

namespace Scanner

/-- A scanner in a literal in triple quotes, behind some quotes that may close it. -/
def inLong (scanner : Scanner) (closing : Nat) : Scanner :=
  { scanner with mode := .long '"' closing false }

/-- A few quotes in front of another character stand for themselves. -/
theorem literalBody_quotes_append {count : Nat} (few : count < 3) {rest : List Char}
    (apart : rest.head? ≠ some '"') :
    literalBody (List.replicate count '"' ++ rest) =
      continued (List.replicate count '"') (literalBody rest) := by
  have single {more : List Char} (notQuote : more.head? ≠ some '"') :
      literalBody ('"' :: more) = continued ['"'] (literalBody more) := by
    refine literalBody_quote fun behind same => ?_
    rw [same] at notQuote
    exact notQuote rfl
  match count with
  | 0 => exact (continued_nil _).symm
  | 1 => exact single apart
  | 2 =>
    have pair : literalBody ('"' :: '"' :: rest) = continued ['"'] (literalBody ('"' :: rest)) := by
      refine literalBody_quote fun behind same => ?_
      rw [(List.cons.inj same).2] at apart
      exact apart rfl
    rw [single apart, ← continued_append] at pair
    exact pair

theorem exists_of_continued {front value rest : List Char} {read : Option (List Char × List Char)}
    (some : continued front read = Option.some (value, rest)) :
    ∃ behind, read = Option.some (behind, rest) := by
  obtain ⟨⟨behind, others⟩, found, same⟩ := Option.map_eq_some_iff.mp some
  cases same
  exact ⟨behind, found⟩

section Long

variable (scanner : Scanner) {closing : Nat}

theorem step_inLong_quote (few : closing < 2) :
    (inLong scanner closing).step '"' = .ok (inLong scanner (closing + 1)) := by
  have notLast : closing ≠ 2 := Nat.ne_of_lt few
  simp [step, inLong, long, notLast]

theorem step_inLong_last :
    (inLong scanner 2).step '"' = .ok (scanner.emit .string .between) := rfl

theorem run_inLong_escape {char : Char} (special : char = '\\' ∨ char = '"') :
    (inLong scanner closing).run ['\\', char] = .ok (inLong scanner 0) := by
  rcases special with rfl | rfl <;> rfl

/-- Behind another character no quotes are counted, and a line may be. -/
theorem exists_step_inLong {char : Char} (noSlash : char ≠ '\\') (noQuote : char ≠ '"') :
    ∃ line, (inLong scanner closing).step char =
      .ok (inLong { scanner with line := line } 0) := by
  by_cases feed : char = '\n'
  · exact ⟨scanner.line + 1, by simp [step, inLong, long, feed]⟩
  · exact ⟨scanner.line, by simp [step, inLong, long, feed, noSlash, noQuote]⟩

end Long

/-- A literal that can be read is scanned to its end. -/
theorem exists_run_inLong (scanner : Scanner) {closing : Nat} (few : closing < 3) {chars : List Char}
    {value rest : List Char}
    (read : literalBody (List.replicate closing '"' ++ chars) = some (value, rest)) :
    ∃ line front, chars = front ++ rest ∧
      (inLong scanner closing).run front =
        .ok ({ scanner with line := line }.emit .string .between) := by
  have none : 0 < 3 := by decide
  -- On the length of the text, as an escape takes two characters at once.
  induction length : chars.length using Nat.strongRecOn generalizing scanner closing chars value with
  | _ count ih =>
  subst length
  match chars with
  | [] =>
    rw [literalBody_quotes_append few (by simp)] at read
    obtain ⟨_, nothing⟩ := exists_of_continued read
    cases nothing
  | char :: chars =>
    by_cases quote : char = '"'
    · subst quote
      rw [← List.singleton_append, ← List.append_assoc, ← List.replicate_succ'] at read
      by_cases last : closing = 2
      · subst last
        cases read
        exact ⟨scanner.line, ['"'], rfl, step_inLong_last scanner⟩
      · have step := step_inLong_quote scanner (by omega : closing < 2)
        obtain ⟨line, front, rfl, ran⟩ :=
          ih chars.length (by simp) scanner (by omega) read rfl
        exact ⟨line, '"' :: front, rfl, by rw [run_cons_of_step _ step, ran]⟩
    · rw [literalBody_quotes_append few (by simpa using quote)] at read
      obtain ⟨_, read⟩ := exists_of_continued read
      by_cases slash : char = '\\'
      · subst slash
        match chars with
        | [] => cases read
        | escaped :: chars =>
          by_cases special : escaped = '\\' ∨ escaped = '"'
          · rw [literalBody_escape special] at read
            obtain ⟨_, read⟩ := exists_of_continued read
            have shorter : chars.length < ('\\' :: escaped :: chars).length := by
              rw [List.length_cons, List.length_cons]
              omega
            obtain ⟨line, front, rfl, ran⟩ := ih chars.length shorter scanner none read rfl
            have escape : (inLong scanner closing).run ['\\', escaped] = .ok (inLong scanner 0) :=
              run_inLong_escape scanner special
            exact ⟨line, '\\' :: escaped :: front, rfl,
              (run_append_of_run front escape).trans ran⟩
          · rw [literalBody, if_neg special] at read
            cases read
      · rw [literalBody_plain slash quote] at read
        obtain ⟨_, read⟩ := exists_of_continued read
        obtain ⟨next, step⟩ := exists_step_inLong scanner slash quote
        obtain ⟨line, front, rfl, ran⟩ :=
          ih chars.length (by simp) { scanner with line := next } none read rfl
        exact ⟨line, char :: front, rfl, by rw [run_cons_of_step _ step, ran]⟩

end Scanner

/-! ## Escaped texts -/

attribute [local simp] escapedRuns

theorem head?_of_head?_escapedRuns {text : List Char}
    (first : (escapedRuns text).head? = some '\n') : text.head? = some '\n' := by
  fun_cases escapedRuns text with
  | case1 => exact first
  | case2 | case3 => cases first
  | case4 char rest noTriple noSlash =>
    rw [escapedRuns_cons noSlash fun same more => noTriple more same] at first
    exact first

/-- Escaping leaves the ends of lines as they are. -/
theorem unifyLineEnds_escapedRuns (text : List Char) :
    unifyLineEnds (escapedRuns text) = escapedRuns (unifyLineEnds text) := by
  fun_induction escapedRuns text with
  | case1 => rfl
  | case2 rest ih =>
    simp only [unifyLineEnds_cons (show '"' ≠ '\r' by decide),
      unifyLineEnds_cons (show '\\' ≠ '\r' by decide), ih, escapedRuns]
  | case3 rest ih =>
    simp only [unifyLineEnds_cons (show '\\' ≠ '\r' by decide), ih, escapedRuns]
  | case4 char rest noTriple noSlash ih =>
    have plain : ∀ more, escapedRuns ('\n' :: more) = '\n' :: escapedRuns more := fun more =>
      escapedRuns_cons (by decide) fun quote => absurd quote (by decide)
    by_cases ends : char = '\r'
    · subst ends
      by_cases feed : rest.head? = some '\n'
      · obtain ⟨rest, rfl⟩ := List.head?_eq_some_iff.mp feed
        rw [plain, unifyLineEnds_cons (by decide), unifyLineEnds_cons (by decide), plain] at ih
        rw [plain, unifyLineEnds_pair, unifyLineEnds_pair, plain, ih]
      · rw [unifyLineEnds_return (mt head?_of_head?_escapedRuns feed), unifyLineEnds_return feed,
          plain, ih]
    · rw [unifyLineEnds_cons ends, unifyLineEnds_cons ends, ih, escapedRuns_cons noSlash]
      rintro rfl more pair
      obtain ⟨_, rfl, behind⟩ := exists_of_unifyLineEnds_eq_cons (by decide) pair
      obtain ⟨last, rfl, -⟩ := exists_of_unifyLineEnds_eq_cons (by decide) behind
      exact noTriple last rfl rfl

/-- The last character of a text may stand in front of closing quotes and of a line feed. -/
def EndsPlainly (text : List Char) : Prop :=
  ∃ front last, text = front ++ [last] ∧ last ≠ '"' ∧ last ≠ '\\' ∧ last ≠ '\n' ∧ last ≠ '\r'

theorem escapeDoc_concat {front : List Char} {last : Char} (noQuote : last ≠ '"') (noSlash : last ≠ '\\') :
    escapeDoc (front ++ [last]) = escapedRuns front ++ [last] := by
  have ending : escapedRuns [last] = [last] :=
    escapedRuns_cons noSlash fun quote => absurd quote noQuote
  have apart : [last].head? ≠ some '"' := by simpa using noQuote
  rw [escapeDoc_eq, escapedRuns_append fun _ => apart, ending, withLastEscaped, List.getLast?_concat,
    if_neg (by simpa using noQuote)]

/-- The line of a docstring that ends plainly is one literal. -/
theorem reads_docstring {text : List Char} (ends : EndsPlainly text) :
    Scanner.Reads false true (unifyLineEnds (docQuotes ++ escapeDoc text ++ docQuotes) ++ ['\n'])
      [[.string]] := by
  obtain ⟨front, last, rfl, noQuote, noSlash, noFeed, noReturn⟩ := ends
  obtain ⟨body, written⟩ : ∃ body, escapedRuns (unifyLineEnds front) ++ (last :: docQuotes) = body :=
    ⟨_, rfl⟩
  have unified : unifyLineEnds (docQuotes ++ escapeDoc (front ++ [last]) ++ docQuotes) =
      docQuotes ++ body := by
    have behind : unifyLineEnds (last :: docQuotes) = last :: docQuotes := by
      rw [unifyLineEnds_cons noReturn]
      rfl
    rw [escapeDoc_concat noQuote noSlash, List.append_assoc, List.append_assoc, List.singleton_append,
      unifyLineEnds_append fun quote => absurd quote (by decide),
      unifyLineEnds_append fun _ => by simpa using noFeed, unifyLineEnds_escapedRuns, behind, written]
    rfl
  have read : literalBody body = some (unifyLineEnds front ++ [last], []) := by
    rw [← written, denotes_escapedRuns _ _ (by simpa using noQuote), literalBody_plain noSlash noQuote,
      ← List.append_nil docQuotes, literalBody_quotes, ← continued_append]
    simp [continued]
  obtain ⟨line, inside, shape, ran⟩ :=
    Scanner.exists_run_inLong (Scanner.atHead false) (by decide : 0 < 3) read
  have opened : (Scanner.atHead false).run docQuotes = .ok (Scanner.inLong (Scanner.atHead false) 0) := rfl
  refine ⟨line + 1, [⟨.lineEnd, line⟩, ⟨.string, line⟩], ?_, rfl⟩
  rw [List.append_nil] at shape
  rw [unified, List.append_assoc, Scanner.run_append_of_run _ opened, shape,
    Scanner.run_append_of_run _ ran]
  rfl

end ProtocolGen.Source
