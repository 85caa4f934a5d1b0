import ProtocolGen.Proofs.Text.Splitting
import ProtocolGen.Source.Docstring

/-!
# Texts in triple quotes

How a literal in triple quotes is read, and what an escaped text is read as: the text itself, except
where it ends with triples of quotes. The last quote of the last triple is escaped already when it is
escaped again, so that its backslash counts as one and the quote stands bare.
-/

set_option autoImplicit false

namespace ProtocolGen.Source

open ProtocolGen.Text

/-! ## Literals in triple quotes -/

/-- Reads a literal behind its opening quotes: its value, and what stands behind the closing ones. Only
backslashes and quotes may be escaped. -/
def literalBody : List Char → Option (List Char × List Char)
  | [] => none
  | '"' :: '"' :: '"' :: rest => some ([], rest)
  | '\\' :: char :: rest =>
    if char = '\\' ∨ char = '"' then
      (literalBody rest).map fun (value, behind) => (char :: value, behind)
    else none
  | char :: rest => (literalBody rest).map fun (value, behind) => (char :: value, behind)

/-- The value of a text that is one literal in triple quotes behind spaces, and nothing more. -/
def literalValue? (text : List Char) : Option (List Char) :=
  match afterStart? docQuotes (text.dropWhile (· == ' ')) with
  | none => none
  | some body =>
    match literalBody body with
    | some (value, []) => some value
    | _ => none

/-- How the value of a literal goes on in front of what is read of it so far. -/
def continued (front : List Char) (read : Option (List Char × List Char)) :
    Option (List Char × List Char) :=
  read.map fun (value, behind) => (front ++ value, behind)

section Reading

variable {char : Char} {rest : List Char}

attribute [local simp] literalBody continued

theorem continued_append (front back : List Char) (read : Option (List Char × List Char)) :
    continued (front ++ back) read = continued front (continued back read) := by
  cases read <;> simp

theorem continued_nil (read : Option (List Char × List Char)) : continued [] read = read := by
  cases read <;> rfl

theorem literalBody_quotes : literalBody (docQuotes ++ rest) = some ([], rest) := rfl

theorem literalBody_escape (special : char = '\\' ∨ char = '"') :
    literalBody ('\\' :: char :: rest) = continued [char] (literalBody rest) := by
  simp [special]

theorem literalBody_quote (apart : ∀ more, rest ≠ '"' :: '"' :: more) :
    literalBody ('"' :: rest) = continued ['"'] (literalBody rest) := by
  rw [literalBody]
  · rfl
  · exact fun more _ => apart more
  · exact fun _ _ slash => absurd slash (by decide)

theorem literalBody_plain (noSlash : char ≠ '\\') (noQuote : char ≠ '"') :
    literalBody (char :: rest) = continued [char] (literalBody rest) := by
  rw [literalBody]
  · rfl
  · exact fun _ quote => absurd quote noQuote
  · exact fun _ _ slash => absurd slash noSlash

end Reading

/-! ## Escaping -/

/-- A text with its backslashes doubled and each three quotes in a row escaped. -/
def escapedRuns : List Char → List Char
  | [] => []
  | '"' :: '"' :: '"' :: rest => '\\' :: '"' :: '\\' :: '"' :: '\\' :: '"' :: escapedRuns rest
  | '\\' :: rest => '\\' :: '\\' :: escapedRuns rest
  | char :: rest => char :: escapedRuns rest

attribute [local simp] escapedRuns

/-- The number of quotes that a text ends with. -/
def trailingQuotes (text : List Char) : Nat := (text.reverse.takeWhile (· == '"')).length

/-- Whether a text ends with a run of quotes that is made of triples. -/
def EndsInTriples (text : List Char) : Prop := 0 < trailingQuotes text ∧ 3 ∣ trailingQuotes text

instance (text : List Char) : Decidable (EndsInTriples text) :=
  inferInstanceAs (Decidable (_ ∧ _))

/-- A text whose last character is not a bare quote. -/
def withLastEscaped (text : List Char) : List Char :=
  if text.getLast? = some '"' then text.dropLast ++ ['\\', '"'] else text

theorem escapedRuns_cons {char : Char} {rest : List Char} (noSlash : char ≠ '\\')
    (apart : char = '"' → ∀ more, rest ≠ '"' :: '"' :: more) :
    escapedRuns (char :: rest) = char :: escapedRuns rest := by
  rw [escapedRuns]
  · exact fun more quote => apart quote more
  · exact fun slash => absurd slash noSlash

/-- A text with its backslashes doubled. -/
def doubled (text : List Char) : List Char := replaceAll ['\\'] ['\\', '\\'] text

theorem doubled_slash (rest : List Char) : doubled ('\\' :: rest) = '\\' :: '\\' :: doubled rest :=
  replaceAll_cons_of_some (by decide) (afterStart?_append ['\\'] rest)

theorem doubled_cons {char : Char} (noSlash : char ≠ '\\') (rest : List Char) :
    doubled (char :: rest) = char :: doubled rest :=
  replaceAll_cons_of_none (by rw [afterStart?_cons, if_neg (Ne.symm noSlash)])

theorem afterStart?_quotes (rest : List Char) :
    afterStart? ['"', '"', '"'] ('"' :: '"' :: '"' :: rest) = some rest := rfl

/-- Doubling backslashes leaves the quotes at the start of a text as they are. -/
theorem afterStart?_doubled (count : Nat) (text : List Char) :
    afterStart? (List.replicate count '"') (doubled text) =
      (afterStart? (List.replicate count '"') text).map doubled := by
  induction count generalizing text with
  | zero => rfl
  | succ count ih =>
    rw [List.replicate_succ]
    match text with
    | [] => rfl
    | char :: rest =>
      by_cases slash : char = '\\'
      · subst slash
        rw [doubled_slash]
        rfl
      · rw [doubled_cons slash, afterStart?_cons, afterStart?_cons]
        split
        · exact ih rest
        · rfl

theorem escapeDoc_eq (text : List Char) : escapeDoc text = withLastEscaped (escapedRuns text) := by
  have escaped : replaceAll ['"', '"', '"'] ['\\', '"', '\\', '"', '\\', '"'] (doubled text) =
      escapedRuns text := by
    fun_induction escapedRuns text with
    | case1 => rfl
    | case2 rest ih =>
      rw [doubled_cons (by decide), doubled_cons (by decide), doubled_cons (by decide),
        replaceAll_cons_of_some (by decide) (afterStart?_quotes _), ih]
      rfl
    | case3 rest ih =>
      rw [doubled_slash, replaceAll_cons_of_none rfl, replaceAll_cons_of_none rfl, ih]
    | case4 char rest noTriple noSlash ih =>
      have noStart : afterStart? ['"', '"', '"'] (char :: rest) = none := by
        cases start : afterStart? ['"', '"', '"'] (char :: rest) with
        | none => rfl
        | some after =>
          obtain ⟨rfl, rfl⟩ := List.cons.inj (eq_append_of_afterStart? start)
          exact (noTriple after rfl rfl).elim
      have other : afterStart? ['"', '"', '"'] (char :: doubled rest) = none := by
        rw [← doubled_cons noSlash]
        exact (afterStart?_doubled 3 (char :: rest)).trans (congrArg _ noStart)
      rw [doubled_cons noSlash, replaceAll_cons_of_none other, ih]
  rw [escapeDoc, withLastEscaped, ← escaped]
  rfl

theorem escapedRuns_append {front back : List Char}
    (apart : front.getLast? = some '"' → back.head? ≠ some '"') :
    escapedRuns (front ++ back) = escapedRuns front ++ escapedRuns back := by
  have later {char : Char} {rest : List Char}
      (apart : (char :: rest).getLast? = some '"' → back.head? ≠ some '"') :
      rest.getLast? = some '"' → back.head? ≠ some '"' := by
    intro last
    apply apart
    rw [List.getLast?_cons, last, Option.getD_some]
  fun_induction escapedRuns front with
  | case1 => rfl
  | case2 rest ih => rw [List.cons_append, List.cons_append, List.cons_append, escapedRuns,
      ih (later (later (later apart)))]; rfl
  | case3 rest ih => rw [List.cons_append, escapedRuns, ih (later apart)]; rfl
  | case4 char rest noTriple noSlash ih =>
    rw [List.cons_append, escapedRuns_cons noSlash, ih (later apart), List.cons_append]
    rintro rfl more shape
    match rest with
    | [] => exact apart rfl (by rw [← List.nil_append back, shape]; rfl)
    | [second] =>
      obtain ⟨quote, behind⟩ := List.cons.inj shape
      exact apart (congrArg some quote) (congrArg List.head? behind)
    | second :: third :: rest =>
      obtain ⟨quote, shape⟩ := List.cons.inj shape
      obtain ⟨otherQuote, -⟩ := List.cons.inj shape
      exact noTriple rest rfl (by rw [quote, otherQuote])

/-- What is read as a value, when no quote stands behind it. -/
def Denotes (written value : List Char) : Prop :=
  ∀ rest : List Char, rest.head? ≠ some '"' →
    literalBody (written ++ rest) = continued value (literalBody rest)

/-- A bare quote at the head of an escaped text stands for itself. -/
theorem exists_of_escapedRuns_append {text rest more : List Char} (apart : rest.head? ≠ some '"')
    (quote : escapedRuns text ++ rest = '"' :: more) :
    ∃ after, text = '"' :: after ∧ more = escapedRuns after ++ rest := by
  match text with
  | [] => exact absurd (congrArg List.head? quote) apart
  | char :: after =>
    by_cases slash : char = '\\'
    · subst slash
      cases quote
    · by_cases triple : char = '"' ∧ ∃ more, after = '"' :: '"' :: more
      · obtain ⟨rfl, more, rfl⟩ := triple
        cases quote
      · rw [escapedRuns_cons slash fun same more behind => triple ⟨same, more, behind⟩] at quote
        obtain ⟨rfl, behind⟩ := List.cons.inj quote
        exact ⟨after, rfl, behind.symm⟩

theorem denotes_escapedRuns (text : List Char) : Denotes (escapedRuns text) text := by
  intro rest apart
  fun_induction escapedRuns text with
  | case1 => exact (continued_nil _).symm
  | case2 text ih =>
    simp only [List.cons_append]
    rw [literalBody_escape (.inr rfl), literalBody_escape (.inr rfl), literalBody_escape (.inr rfl),
      ih, ← continued_append, ← continued_append, ← continued_append]
    rfl
  | case3 text ih =>
    rw [List.cons_append, List.cons_append, literalBody_escape (.inl rfl), ih,
      ← continued_append]
    rfl
  | case4 char text noTriple noSlash ih =>
    have read : literalBody (char :: (escapedRuns text ++ rest)) =
        continued [char] (literalBody (escapedRuns text ++ rest)) := by
      by_cases quote : char = '"'
      · subst quote
        refine literalBody_quote fun more pair => ?_
        obtain ⟨after, rfl, behind⟩ := exists_of_escapedRuns_append apart pair
        obtain ⟨last, rfl, -⟩ := exists_of_escapedRuns_append apart behind.symm
        exact noTriple last rfl rfl
      · exact literalBody_plain noSlash quote
    rw [List.cons_append, read, ih, ← continued_append]
    rfl

/-! ## Quotes at the end -/

theorem exists_trailingQuotes (text : List Char) :
    ∃ front, text = front ++ List.replicate (trailingQuotes text) '"' ∧
      front.getLast? ≠ some '"' := by
  let isQuote (char : Char) : Bool := char == '"'
  have run : text.reverse.takeWhile isQuote = List.replicate (trailingQuotes text) '"' := by
    refine List.eq_replicate_iff.mpr ⟨rfl, fun char member => ?_⟩
    have quote : isQuote char := List.mem_takeWhile_imp member
    exact beq_iff_eq.mp quote
  refine ⟨(text.reverse.dropWhile isQuote).reverse, ?_, ?_⟩
  · rw [← List.reverse_replicate, ← run, ← List.reverse_append, List.takeWhile_append_dropWhile,
      List.reverse_reverse]
  · rw [List.getLast?_reverse]
    intro quote
    have other := List.head?_dropWhile_not isQuote text.reverse
    rw [quote] at other
    cases other

theorem takeWhile_of_head? {chars : List Char} (apart : chars.head? ≠ some '"') :
    chars.takeWhile (· == '"') = [] := by
  cases chars with
  | nil => rfl
  | cons char chars =>
    rw [List.takeWhile_cons_of_neg]
    rw [beq_iff_eq]
    rintro rfl
    exact apart rfl

theorem trailingQuotes_append {front back : List Char} (apart : front.getLast? ≠ some '"') :
    trailingQuotes (front ++ back) = trailingQuotes back := by
  rw [← List.head?_reverse] at apart
  rw [trailingQuotes, trailingQuotes, List.reverse_append, List.takeWhile_append,
    takeWhile_of_head? apart]
  split
  · next all => rw [List.append_nil, ← all]
  · rfl

/-! ## The last quote -/

theorem withLastEscaped_append {front back : List Char} (some : back ≠ []) :
    withLastEscaped (front ++ back) = front ++ withLastEscaped back := by
  rw [withLastEscaped, withLastEscaped, List.getLast?_append_of_ne_nil _ some,
    List.dropLast_append_of_ne_nil some]
  split
  · rw [List.append_assoc]
  · rfl

/-- A run of quotes one longer than triples and at most one more ends with a bare quote. -/
theorem escapedRuns_replicate_succ {count : Nat} (more : count % 3 ≠ 2) :
    escapedRuns (List.replicate (count + 1) '"') =
      escapedRuns (List.replicate count '"') ++ ['"'] := by
  induction count using Nat.strongRecOn with
  | _ count ih =>
  match count with
  | 0 | 1 => rfl
  | 2 => contradiction
  | count + 3 =>
    have shorter := ih count (by omega) (by omega)
    simpa [List.replicate_succ] using shorter

def escapedTriple : List Char := ['\\', '"', '\\', '"', '\\', '"']

theorem escapedRuns_replicate_add (count : Nat) :
    escapedRuns (List.replicate (count + 3) '"') =
      escapedTriple ++ escapedRuns (List.replicate count '"') := rfl

theorem escapedRuns_replicate_triple {count : Nat} (triples : 3 ∣ count) :
    escapedRuns (List.replicate (count + 3) '"') =
      escapedRuns (List.replicate count '"') ++ escapedTriple := by
  obtain ⟨triples, rfl⟩ := triples
  induction triples with
  | zero => rfl
  | succ triples ih =>
    rw [Nat.mul_succ, escapedRuns_replicate_add, ih, ← List.append_assoc,
      ← escapedRuns_replicate_add, ih]

/-- What is read as a value, whatever stands behind it. -/
def DenotesAnywhere (written value : List Char) : Prop :=
  ∀ rest : List Char, literalBody (written ++ rest) = continued value (literalBody rest)

theorem DenotesAnywhere.denotes {written value : List Char} (read : DenotesAnywhere written value) :
    Denotes written value :=
  fun rest _ => read rest

theorem Denotes.append {front back value other : List Char} (read : Denotes front value)
    (last : DenotesAnywhere back other) (apart : back.head? ≠ some '"') (notEmpty : back ≠ []) :
    DenotesAnywhere (front ++ back) (value ++ other) := by
  intro rest
  rw [List.append_assoc, read, last, continued_append]
  rwa [List.head?_append_of_ne_nil _ notEmpty]

theorem denotesAnywhere_escape {char : Char} (special : char = '\\' ∨ char = '"') :
    DenotesAnywhere ['\\', char] [char] :=
  fun _ => literalBody_escape special

theorem denotesAnywhere_escapeDoc {text : List Char} (other : ¬ EndsInTriples text) :
    DenotesAnywhere (escapeDoc text) text := by
  obtain ⟨front, shape, apart⟩ := exists_trailingQuotes text
  rw [EndsInTriples] at other
  rw [escapeDoc_eq]
  generalize trailingQuotes text = count at shape other
  subst shape
  cases count with
  | zero =>
    rw [List.replicate_zero, List.append_nil]
    rcases List.eq_nil_or_concat' front with rfl | ⟨init, char, rfl⟩
    · exact fun rest => (continued_nil _).symm
    · have noQuote : char ≠ '"' := by
        rintro rfl
        exact apart List.getLast?_concat
      have split : escapedRuns (init ++ [char]) = escapedRuns init ++ escapedRuns [char] :=
        escapedRuns_append fun _ => by simpa using noQuote
      by_cases slash : char = '\\'
      · subst slash
        rw [split, withLastEscaped_append (by decide)]
        exact (denotes_escapedRuns init).append (denotesAnywhere_escape (.inl rfl)) (by decide)
          (by decide)
      · have bare : escapedRuns [char] = [char] := escapedRuns_cons slash (by simp)
        rw [split, bare, withLastEscaped_append (by simp), withLastEscaped, if_neg (by simpa using noQuote)]
        exact (denotes_escapedRuns init).append (fun rest => literalBody_plain slash noQuote)
          (by simpa using noQuote) (by simp)
  | succ count =>
    have more : count % 3 ≠ 2 := by omega
    have apart (count : Nat) : front.getLast? = some '"' →
        (List.replicate count '"').head? ≠ some '"' := fun quote => absurd quote apart
    have last : withLastEscaped ['"'] = ['\\', '"'] := rfl
    rw [escapedRuns_append (apart _), escapedRuns_replicate_succ more, ← List.append_assoc,
      ← escapedRuns_append (apart _), withLastEscaped_append (by simp), last, List.replicate_succ',
      ← List.append_assoc]
    exact (denotes_escapedRuns _).append (denotesAnywhere_escape (.inr rfl)) (by decide) (by decide)

theorem escapeDoc_of_endsInTriples {text : List Char} (triples : EndsInTriples text) :
    ∃ front, text = front ++ ['"', '"', '"'] ∧
      escapeDoc text = escapedRuns front ++ ['\\', '"', '\\', '"', '\\', '\\', '"'] := by
  obtain ⟨front, shape, apart⟩ := exists_trailingQuotes text
  obtain ⟨positive, triples⟩ := triples
  rw [escapeDoc_eq]
  generalize trailingQuotes text = count at shape positive triples
  obtain ⟨count, rfl⟩ := Nat.exists_eq_add_of_le' (Nat.le_of_dvd positive triples)
  have fewer : 3 ∣ count := (Nat.dvd_add_left (Nat.dvd_refl 3)).mp triples
  have apart (count : Nat) : front.getLast? = some '"' →
      (List.replicate count '"').head? ≠ some '"' := fun quote => absurd quote apart
  refine ⟨front ++ List.replicate count '"', ?_, ?_⟩
  · rw [shape, List.replicate_add, List.append_assoc]
    rfl
  · rw [shape, escapedRuns_append (apart _), escapedRuns_replicate_triple fewer, ← List.append_assoc,
      ← escapedRuns_append (apart _), withLastEscaped_append (by decide)]
    rfl

/-- What an escaped text is read as: the text, unless it ends in triples of quotes. -/
def readAs (text : List Char) : List Char :=
  if EndsInTriples text then text.dropLast ++ ['\\', '"'] else text

theorem readAs_eq_iff {text : List Char} : readAs text = text ↔ ¬ EndsInTriples text := by
  rw [readAs]
  split
  · next triples =>
    obtain ⟨front, rfl, -⟩ := escapeDoc_of_endsInTriples triples
    refine iff_of_false (fun same => ?_) (not_not_intro triples)
    have length := congrArg List.length same
    simp at length
  · next other => exact iff_of_true rfl other

/-- The last quote of triples stands bare in front of a closing quote, and is one of the three. -/
theorem literalBody_of_endsInTriples {text : List Char} (triples : EndsInTriples text) :
    ∃ value, literalBody (escapeDoc text ++ docQuotes) = some (value, ['"']) := by
  obtain ⟨front, -, written⟩ := escapeDoc_of_endsInTriples triples
  rw [written, List.append_assoc, denotes_escapedRuns front _ (by decide)]
  exact ⟨_, rfl⟩

theorem denotes_escapeDoc (text : List Char) : Denotes (escapeDoc text) (readAs text) := by
  rw [readAs]
  split
  · next triples =>
    obtain ⟨front, rfl, written⟩ := escapeDoc_of_endsInTriples triples
    intro rest apart
    rw [written, List.append_assoc, denotes_escapedRuns front _ (by simp)]
    simp only [List.cons_append, List.nil_append]
    rw [literalBody_escape (.inr rfl), literalBody_escape (.inr rfl), literalBody_escape (.inl rfl),
      literalBody_quote, ← continued_append, ← continued_append, ← continued_append,
      ← continued_append]
    · simp
    · rintro more rfl
      exact apart rfl
  · next other => exact (denotesAnywhere_escapeDoc other).denotes

end ProtocolGen.Source
