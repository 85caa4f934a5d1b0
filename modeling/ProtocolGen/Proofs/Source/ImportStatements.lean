import ProtocolGen.Proofs.Naming.Identifiers
import ProtocolGen.Proofs.Source.ImportSections
import ProtocolGen.Proofs.Source.Phrases
import ProtocolGen.Proofs.Text.Splitting
import ProtocolGen.Source.Imports

/-!
# Import statements

What makes the lines of an import section import statements. A module is named by identifiers with dots
between them, and names are taken from it; each such line can be read, whatever the identifiers are. It
is an import statement exactly when none of them is a keyword.
-/

set_option autoImplicit false

namespace ProtocolGen.Source

open ProtocolGen.Text

/-! ## Statements -/

def endsStatement (lexeme : Lexeme) : Bool := lexeme = .lineEnd || lexeme = .mark ';'

/-- The statements of lexemes, given the reversed lexemes that the first one begins with. -/
def statementsFrom (statement : List Lexeme) : List Lexeme → List (List Lexeme)
  | [] => [statement.reverse]
  | lexeme :: rest =>
    if endsStatement lexeme then statement.reverse :: statementsFrom [] rest
    else statementsFrom (lexeme :: statement) rest

/-- The import statements among lexemes are well formed. -/
def ImportsWell (lexemes : List Lexeme) : Prop :=
  ∀ statement ∈ statementsFrom [] lexemes, isAcceptable statement

theorem badImportFrom_eq_none_iff {statement : List Lexeme} {line : Nat} {located : List Located} :
    badImportFrom statement line located = none ↔
      ∀ found ∈ statementsFrom statement (located.map Located.lexeme), isAcceptable found := by
  induction located generalizing statement line with
  | nil => simp [badImportFrom, statementsFrom]
  | cons head rest ih =>
    rw [badImportFrom, List.map_cons, statementsFrom]
    have same : (head.lexeme = .lineEnd || head.lexeme = .mark ';') = endsStatement head.lexeme := rfl
    rw [same]
    by_cases ends : endsStatement head.lexeme
    · rw [if_pos ends, if_pos ends, List.forall_mem_cons, ← ih]
      split
      · next acceptable => exact (and_iff_right acceptable).symm
      · next bad => exact iff_of_false (by simp) fun both => bad both.1
    · rw [if_neg ends, if_neg ends, ih]

theorem badImport?_eq_none_iff {located : List Located} :
    badImport? located = none ↔ ImportsWell (located.map Located.lexeme) :=
  badImportFrom_eq_none_iff

theorem statementsFrom_lineEnd (statement before after : List Lexeme) :
    statementsFrom statement (before ++ .lineEnd :: after) =
      statementsFrom statement before ++ statementsFrom [] after := by
  induction before generalizing statement with
  | nil => rfl
  | cons head before ih =>
    rw [List.cons_append, statementsFrom, statementsFrom]
    split
    · rw [ih, List.cons_append]
    · rw [ih]

theorem importsWell_lineEnd_iff {before after : List Lexeme} :
    ImportsWell (before ++ .lineEnd :: after) ↔ ImportsWell before ∧ ImportsWell after := by
  rw [ImportsWell, statementsFrom_lineEnd]
  exact List.forall_mem_append

/-- A line of code that is one import statement. -/
def IsImport (line : String) : Prop :=
  ∃ located statement, lexemes line.toList = .ok located ∧
    located.map Located.lexeme = statement ++ [.lineEnd] ∧
    statement.head? ∈ [some (.word "import"), some (.word "from")] ∧ isAcceptable statement

/-! ## Lists of names -/

/-- The lexemes of names with a mark between each two. -/
def marked (char : Char) (names : List String) : List Lexeme :=
  [.mark char].intercalate (names.map fun name => [.word name])

def IsKeyword (name : String) : Prop := isKeyword name.toList

theorem isKeyword_iff {name : String} : IsKeyword name ↔ name ∈ keywords := by
  simp [IsKeyword, isKeyword, String.toList_inj]

instance (name : String) : Decidable (IsKeyword name) := decidable_of_iff _ isKeyword_iff.symm

section Marked

variable {char : Char} {name : String} {names : List String} {rest : List Lexeme}

theorem marked_nil : marked char [] = [] := rfl

theorem marked_singleton : marked char [name] = [.word name] := List.intercalate_singleton

theorem marked_cons (others : names ≠ []) :
    marked char (name :: names) = .word name :: .mark char :: marked char names := by
  obtain ⟨next, names, rfl⟩ := List.exists_cons_of_ne_nil others
  rw [marked, List.map_cons, List.map_cons, List.intercalate_cons_cons]
  rfl

theorem exists_marked_cons (char : Char) (name : String) (names : List String) :
    ∃ more, marked char (name :: names) = .word name :: more := by
  by_cases last : names = []
  · exact ⟨[], by rw [last, marked_singleton]⟩
  · exact ⟨_, marked_cons last⟩

theorem isNaming_word_iff : isNaming (.word name) ↔ ¬ IsKeyword name := by
  simp [isNaming, Lexeme.word, IsKeyword]

theorem afterDotted?_word (apart : rest.head? ≠ some (.mark '.')) :
    afterDotted? (.word name :: rest) = if IsKeyword name then none else some rest := by
  have read : afterDotted? (.word name :: rest) =
      if isNaming (.word name) then some rest else none := by
    rw [afterDotted?]
    rintro more rfl
    exact apart rfl
  rw [read, if_congr isNaming_word_iff rfl rfl, ite_not]

theorem afterDotted?_word_dot : afterDotted? (.word name :: .mark '.' :: rest) =
    if IsKeyword name then none else afterDotted? rest := by
  rw [afterDotted?, if_congr isNaming_word_iff rfl rfl, ite_not]

/-- What stands behind a dotted name is found when no part of the name is a keyword. -/
theorem afterDotted?_marked (full : names ≠ []) (apart : rest.head? ≠ some (.mark '.')) :
    afterDotted? (marked '.' names ++ rest) =
      if ∃ name ∈ names, IsKeyword name then none else some rest := by
  induction names with
  | nil => exact absurd rfl full
  | cons name names ih =>
    by_cases others : names = []
    · subst others
      rw [marked_singleton, List.singleton_append, afterDotted?_word apart]
      simp
    · rw [marked_cons others, List.cons_append, List.cons_append, afterDotted?_word_dot, ih others]
      by_cases keyword : IsKeyword name <;> simp [keyword]

theorem areNames_marked (full : names ≠ []) (plain : ∀ name ∈ names, ¬ IsKeyword name) {bound : Nat}
    (enough : names.length ≤ bound) : areNames false bound (marked ',' names) := by
  induction names generalizing bound with
  | nil => exact absurd rfl full
  | cons name names ih =>
    obtain ⟨bound, rfl⟩ : ∃ less, bound = less + 1 :=
      Nat.exists_eq_add_one_of_ne_zero (by rintro rfl; cases enough)
    obtain ⟨notKeyword, plain⟩ := List.forall_mem_cons.mp plain
    have naming := isNaming_word_iff.mpr notKeyword
    by_cases others : names = []
    · subst others
      rw [marked_singleton, areNames, naming]
      rfl
    · have restNames := ih others plain (Nat.le_of_succ_le_succ enough)
      rw [marked_cons others]
      obtain ⟨next, names, rfl⟩ := List.exists_cons_of_ne_nil others
      obtain ⟨more, shape⟩ := exists_marked_cons ',' next names
      rw [shape] at restNames ⊢
      rw [areNames, naming]
      exact restNames

theorem length_le_length_marked : names.length ≤ (marked char names).length := by
  induction names with
  | nil => exact Nat.zero_le _
  | cons name names ih =>
    by_cases others : names = []
    · rw [others, marked_singleton]
      rfl
    · rw [marked_cons others, List.length_cons, List.length_cons, List.length_cons]
      omega

end Marked

/-! ## Modules -/

/-- The name of a module: identifiers with dots between them, behind a dot when the module is near. A dot
alone names the package that a module is in. -/
structure ModulePath where
  near : Bool
  parts : List String
  identifiers : ∀ part ∈ parts, isIdentifier part.toList
  notEmpty : near ∨ parts ≠ []

namespace ModulePath

def text (path : ModulePath) : String :=
  (if path.near then "." else "") ++ ".".intercalate path.parts

def HasKeyword (path : ModulePath) : Prop := ∃ part ∈ path.parts, IsKeyword part

instance (path : ModulePath) : Decidable path.HasKeyword :=
  inferInstanceAs (Decidable (∃ part ∈ path.parts, IsKeyword part))

end ModulePath

section Statements

variable {path : ModulePath} {names : List String}

theorem areTargets_marked (full : names ≠ []) (plain : ∀ name ∈ names, ¬ IsKeyword name) :
    areTargets (marked ',' names) := by
  have named : areNames false (marked ',' names).length (marked ',' names) :=
    areNames_marked full plain length_le_length_marked
  obtain ⟨next, names, rfl⟩ := List.exists_cons_of_ne_nil full
  obtain ⟨more, shape⟩ := exists_marked_cons ',' next names
  rw [shape] at named ⊢
  exact named

/-- The word between a module and the names that are taken from it. -/
def importWord : Lexeme := .word "import"

def leadingDots (near : Bool) : List Lexeme := if near then [.mark '.'] else []

/-- Whether what stands behind a module's name is a list of names that are taken from it. -/
def areBehind : Option (List Lexeme) → Bool
  | some (.name ['i', 'm', 'p', 'o', 'r', 't'] :: targets) => areTargets targets
  | _ => false

section FromRest

variable {near : Bool} {first : String} {more : List Lexeme}

theorem dropWhile_leadingDots :
    (leadingDots near ++ .word first :: more).dropWhile (· == .mark '.') = .word first :: more := by
  cases near <;> simp [leadingDots, Lexeme.word]

theorem isFromRest_of_name (other : first ≠ "import") :
    isFromRest (leadingDots near ++ .word first :: more) =
      areBehind (afterDotted? (.word first :: more)) := by
  have otherChars : first.toList ≠ ['i', 'm', 'p', 'o', 'r', 't'] :=
    fun same => other (String.toList_inj.mp same)
  rw [isFromRest, dropWhile_leadingDots]
  refine congrArg areBehind ?_
  split
  · next named => exact absurd (Lexeme.name.inj (List.cons.inj named).1) otherChars
  · rfl

theorem isFromRest_importWord :
    isFromRest (leadingDots near ++ importWord :: more) = (near && areTargets more) := by
  rw [importWord, isFromRest, dropWhile_leadingDots]
  cases near <;> simp [leadingDots, Lexeme.word]

end FromRest

theorem isKeyword_import : IsKeyword "import" := by decide

theorem areTargets_importWord (rest : List Lexeme) : areTargets (importWord :: rest) = false := rfl

theorem areTargets_dot (rest : List Lexeme) : areTargets (.mark '.' :: rest) = false := rfl

/-- The lexemes of a module's name. -/
def ModulePath.lexemes (path : ModulePath) : List Lexeme :=
  leadingDots path.near ++ marked '.' path.parts

/-- Names are taken from a module when no part of its name is a keyword. -/
theorem isFromRest_iff (full : names ≠ []) (plain : ∀ name ∈ names, ¬ IsKeyword name) :
    isFromRest (path.lexemes ++ importWord :: marked ',' names) ↔ ¬ path.HasKeyword := by
  have targets := areTargets_marked full plain
  rw [ModulePath.lexemes, List.append_assoc, ModulePath.HasKeyword]
  cases parts : path.parts with
  | nil =>
    have near : path.near := path.notEmpty.resolve_right (absurd parts)
    rw [marked_nil, List.nil_append, isFromRest_importWord, near, targets]
    simp
  | cons first others =>
    by_cases word : first = "import"
    · have keyword : ∃ part ∈ first :: others, IsKeyword part :=
        ⟨first, List.mem_cons_self, word ▸ isKeyword_import⟩
      refine iff_of_false ?_ (not_not_intro keyword)
      by_cases last : others = []
      · rw [last, marked_singleton, List.singleton_append, word, ← importWord, isFromRest_importWord,
          areTargets_importWord, Bool.and_false]
        exact Bool.false_ne_true
      · rw [marked_cons last, List.cons_append, List.cons_append, word, ← importWord,
          isFromRest_importWord, areTargets_dot, Bool.and_false]
        exact Bool.false_ne_true
    · have apart : (importWord :: marked ',' names).head? ≠ some (.mark '.') := by simp [importWord]
      have found := afterDotted?_marked (List.cons_ne_nil first others) apart
      obtain ⟨more, shape⟩ := exists_marked_cons '.' first others
      rw [shape] at found ⊢
      rw [List.cons_append, isFromRest_of_name word, ← List.cons_append, found]
      split
      · next keyword => exact iff_of_false Bool.false_ne_true (not_not_intro keyword)
      · next plain => exact iff_of_true targets plain

theorem areModules_iff (undotted : ¬ path.near) {bound : Nat} (enough : bound ≠ 0) :
    areModules bound path.lexemes ↔ ¬ path.HasKeyword := by
  obtain ⟨bound, rfl⟩ := Nat.exists_eq_add_one_of_ne_zero enough
  have apart : ([] : List Lexeme).head? ≠ some (.mark '.') := by simp
  have found := afterDotted?_marked (path.notEmpty.resolve_left undotted) apart
  rw [List.append_nil] at found
  rw [ModulePath.lexemes, leadingDots, if_neg undotted, List.nil_append, areModules, found,
    ModulePath.HasKeyword]
  by_cases keyword : ∃ part ∈ path.parts, IsKeyword part
  · rw [if_pos keyword]
    exact iff_of_false Bool.false_ne_true (not_not_intro keyword)
  · rw [if_neg keyword]
    exact iff_of_true rfl keyword

/-- The statement that imports a module as a whole. -/
def wholeStatement (path : ModulePath) : List Lexeme := importWord :: path.lexemes

/-- The statement that takes names from a module. -/
def takingStatement (path : ModulePath) (names : List String) : List Lexeme :=
  .word "from" :: (path.lexemes ++ importWord :: marked ',' names)

theorem isAcceptable_wholeStatement_iff (undotted : ¬ path.near) :
    isAcceptable (wholeStatement path) ↔ ¬ path.HasKeyword := by
  have full : path.lexemes.length ≠ 0 := by
    obtain ⟨first, others, parts⟩ := List.exists_cons_of_ne_nil (path.notEmpty.resolve_left undotted)
    obtain ⟨more, shape⟩ := exists_marked_cons '.' first others
    simp [ModulePath.lexemes, parts, shape]
  exact areModules_iff undotted full

theorem isAcceptable_takingStatement_iff (full : names ≠ []) (plain : ∀ name ∈ names, ¬ IsKeyword name) :
    isAcceptable (takingStatement path names) ↔ ¬ path.HasKeyword :=
  isFromRest_iff full plain

end Statements

/-! ## Lines of import sections -/

/-- A line of code whose lexemes are those of pieces that spell it. -/
def ReadsAs (line : String) (statement : List Lexeme) : Prop :=
  ∃ pieces, line.toList = Piece.spell pieces ∧ Piece.Follow none [] pieces ∧
    Piece.lexemes pieces = statement ∧ statement ≠ []

theorem ReadsAs.exists_lexemes {line : String} {statement : List Lexeme}
    (reads : ReadsAs line statement) : ∃ located, lexemes line.toList = .ok located ∧
      located.map Located.lexeme = statement ++ [.lineEnd] := by
  obtain ⟨pieces, chars, follow, rfl, notEmpty⟩ := reads
  rw [chars]
  exact lexemes_spell follow notEmpty

theorem ReadsAs.isImport_iff {line : String} {statement : List Lexeme} (reads : ReadsAs line statement)
    (head : statement.head? ∈ [some (.word "import"), some (.word "from")]) :
    IsImport line ↔ isAcceptable statement := by
  obtain ⟨located, read, found⟩ := reads.exists_lexemes
  constructor
  · intro isImport
    obtain ⟨others, other, otherRead, otherFound, -, acceptable⟩ := isImport
    cases read.symm.trans otherRead
    rwa [List.append_cancel_right (found.symm.trans otherFound)]
  · intro acceptable
    exact ⟨located, statement, read, found, head, acceptable⟩

/-! ### Pieces of a list of names -/

/-- A mark between two names, with or without a blank behind it. -/
def gap (char : Char) (spaced : Bool) : List Piece := .mark char :: if spaced then [.blank] else []

def listed (char : Char) (spaced : Bool) (names : List String) : List Piece :=
  (gap char spaced).intercalate (names.map fun name => [.word name])

section Listed

variable {char : Char} {spaced : Bool} {name : String} {names : List String} {rest : List Piece}
  {last : Option Piece}

theorem listed_singleton : listed char spaced [name] = [.word name] := List.intercalate_singleton

theorem listed_cons (others : names ≠ []) :
    listed char spaced (name :: names) = .word name :: (gap char spaced ++ listed char spaced names) := by
  obtain ⟨next, names, rfl⟩ := List.exists_cons_of_ne_nil others
  rw [listed, List.map_cons, List.map_cons, List.intercalate_cons_cons]
  rfl

theorem lexemes_append (pieces others : List Piece) :
    Piece.lexemes (pieces ++ others) = Piece.lexemes pieces ++ Piece.lexemes others :=
  List.filterMap_append

theorem spell_append (pieces others : List Piece) :
    Piece.spell (pieces ++ others) = Piece.spell pieces ++ Piece.spell others :=
  List.flatMap_append

theorem lexemes_listed : Piece.lexemes (listed char spaced names) = marked char names := by
  induction names with
  | nil => rfl
  | cons name names ih =>
    by_cases others : names = []
    · rw [others, listed_singleton, marked_singleton]
      rfl
    · rw [listed_cons others, marked_cons others, Piece.lexemes_word, lexemes_append, ih]
      cases spaced <;> rfl

theorem spell_listed : Piece.spell (listed char spaced names) =
    (Piece.spell (gap char spaced)).intercalate (names.map String.toList) := by
  induction names with
  | nil => rfl
  | cons name names ih =>
    by_cases others : names = []
    · subst others
      rw [listed_singleton, List.map_singleton, List.intercalate_singleton]
      simp
    · rw [listed_cons others, Piece.spell_cons, spell_append, ih]
      obtain ⟨next, names, rfl⟩ := List.exists_cons_of_ne_nil others
      simp only [List.map_cons, List.intercalate_cons_cons, Piece.chars_word, List.append_assoc]

theorem follow_gap (passes : Piece.owedBehindMark? [] char = some []) {piece : Piece} :
    Piece.Follow (some piece) [] (gap char spaced ++ rest) ↔
      Piece.Follow (some (if spaced then .blank else .mark char)) [] rest := by
  cases spaced <;> simp [gap, passes]

theorem follow_listed (passes : Piece.owedBehindMark? [] char = some []) (full : names ≠ [])
    (identifiers : ∀ name ∈ names, isIdentifier name.toList)
    (apart : ∀ name, Piece.Apart last (.word name))
    (follow : ∀ name, Piece.Follow (some (.word name)) [] rest) :
    Piece.Follow last [] (listed char spaced names ++ rest) := by
  induction names generalizing last with
  | nil => exact absurd rfl full
  | cons name names ih =>
    obtain ⟨identifier, identifiers⟩ := List.forall_mem_cons.mp identifiers
    by_cases others : names = []
    · rw [others, listed_singleton, List.singleton_append, Piece.follow_word]
      exact ⟨identifier, apart name, follow name⟩
    · rw [listed_cons others, List.cons_append, List.append_assoc, Piece.follow_word,
        follow_gap passes]
      refine ⟨identifier, apart name, ih others identifiers fun next => ?_⟩
      cases spaced <;> trivial

end Listed

/-! ### Pieces of the two statements -/

def ModulePath.pieces (path : ModulePath) : List Piece :=
  (if path.near then [.mark '.'] else []) ++ listed '.' false path.parts

section Lines

variable {path : ModulePath} {names : List String}

theorem lexemes_pieces : Piece.lexemes path.pieces = path.lexemes := by
  rw [ModulePath.pieces, ModulePath.lexemes, lexemes_append, lexemes_listed, leadingDots]
  cases path.near <;> rfl

theorem spell_pieces : Piece.spell path.pieces = path.text.toList := by
  rw [ModulePath.pieces, ModulePath.text, spell_append, spell_listed, String.toList_append,
    String.toList_intercalate]
  cases path.near <;> rfl

theorem passes_dot : Piece.owedBehindMark? [] '.' = some [] := by decide

theorem passes_comma : Piece.owedBehindMark? [] ',' = some [] := by decide

theorem follow_pieces {rest : List Piece} (follow : ∀ piece, Piece.Follow (some piece) [] rest) :
    Piece.Follow (some .blank) [] (path.pieces ++ rest) := by
  have parts {last : Piece} (full : path.parts ≠ []) (apart : ∀ name, Piece.Apart (some last) (.word name)) :
      Piece.Follow (some last) [] (listed '.' false path.parts ++ rest) :=
    follow_listed passes_dot full path.identifiers apart fun name => follow (.word name)
  rw [ModulePath.pieces, List.append_assoc]
  by_cases near : path.near
  · rw [if_pos near, List.singleton_append, Piece.follow_mark]
    refine ⟨[], passes_dot, ?_⟩
    by_cases none : path.parts = []
    · rw [none]
      exact follow (.mark '.')
    · exact parts none fun name => trivial
  · rw [if_neg near, List.nil_append]
    exact parts (path.notEmpty.resolve_left near) fun name => trivial

/-- The line that imports a module as a whole. -/
def wholeLine (module : String) : String := "import " ++ module

theorem readsAs_wholeLine : ReadsAs (wholeLine path.text) (wholeStatement path) := by
  refine ⟨.word "import" :: .blank :: path.pieces, ?_, ?_, ?_, List.cons_ne_nil _ _⟩
  · rw [wholeLine, String.toList_append, Piece.spell_cons, Piece.spell_cons, spell_pieces]
    rfl
  · have follow : Piece.Follow (some .blank) [] (path.pieces ++ []) := follow_pieces fun _ => rfl
    rw [List.append_nil] at follow
    exact Piece.follow_word.mpr ⟨by decide, trivial, Piece.follow_blank.mpr follow⟩
  · rw [Piece.lexemes_word, Piece.lexemes_blank, lexemes_pieces]
    rfl

theorem readsAs_importLine (full : names ≠ [])
    (identifiers : ∀ name ∈ names, isIdentifier name.toList) :
    ReadsAs (importLine path.text names) (takingStatement path names) := by
  refine ⟨.word "from" :: .blank :: (path.pieces ++
    .blank :: .word "import" :: .blank :: listed ',' true names), ?_, ?_, ?_, List.cons_ne_nil _ _⟩
  · simp only [importLine, String.toList_append, String.toList_intercalate, Piece.spell_cons,
      spell_append, spell_pieces, spell_listed, List.append_assoc]
    rfl
  · have taken : Piece.Follow (some .blank) [] (listed ',' true names ++ []) :=
      follow_listed passes_comma full identifiers (fun _ => trivial) fun _ => rfl
    rw [List.append_nil] at taken
    refine Piece.follow_word.mpr ⟨by decide, trivial, Piece.follow_blank.mpr (follow_pieces ?_)⟩
    intro piece
    exact Piece.follow_blank.mpr
      (Piece.follow_word.mpr ⟨by decide, trivial, Piece.follow_blank.mpr taken⟩)
  · rw [Piece.lexemes_word, Piece.lexemes_blank, lexemes_append, lexemes_pieces, Piece.lexemes_blank,
      Piece.lexemes_word, Piece.lexemes_blank, lexemes_listed]
    rfl

/-- A name that may be imported. -/
def IsImportable (name : String) : Prop := isIdentifier name.toList ∧ ¬ IsKeyword name

instance (name : String) : Decidable (IsImportable name) := inferInstanceAs (Decidable (_ ∧ _))

theorem isImport_wholeLine_iff (undotted : ¬ path.near) :
    IsImport (wholeLine path.text) ↔ ¬ path.HasKeyword :=
  (readsAs_wholeLine.isImport_iff List.mem_cons_self).trans (isAcceptable_wholeStatement_iff undotted)

theorem isImport_importLine_iff (full : names ≠ []) (importable : ∀ name ∈ names, IsImportable name) :
    IsImport (importLine path.text names) ↔ ¬ path.HasKeyword := by
  have reads : ReadsAs (importLine path.text names) (takingStatement path names) :=
    readsAs_importLine full fun name member => (importable name member).1
  have second : (takingStatement path names).head? ∈ [some (.word "import"), some (.word "from")] :=
    List.mem_cons_of_mem _ List.mem_cons_self
  exact (reads.isImport_iff second).trans
    (isAcceptable_takingStatement_iff full fun name member => (importable name member).2)

end Lines

/-! ## Keywords in names of modules -/

/-- A part of a module's name, as the dots divide it, is a keyword. -/
def HasKeyword (module : String) : Prop := ∃ part ∈ splitOn ['.'] module.toList, isKeyword part

instance (module : String) : Decidable (HasKeyword module) := inferInstanceAs (Decidable (∃ _ ∈ _, _))

theorem splitOn_joined_parts {parts : List String} (full : parts ≠ [])
    (identifiers : ∀ part ∈ parts, isIdentifier part.toList) :
    splitOn ['.'] (".".intercalate parts).toList = parts.map String.toList := by
  have alone : ∀ part ∈ parts, splitOn ['.'] part.toList = [part.toList] := fun part member =>
    splitOn_of_not_mem (Naming.not_mem_of_isIdentifier (by decide) (identifiers part member))
  have notEmpty : parts.map String.toList ≠ [] := by simpa using full
  have joined : (".".intercalate parts).toList = joinWith ['.'] (parts.map String.toList) := by
    rw [String.toList_intercalate, joinWith_eq_intercalate]
    rfl
  rw [joined, splitOn_joinWith notEmpty, List.flatMap_map, List.map_eq_flatMap]
  exact List.flatMap_congr alone

/-- A name that the dots divide into identifiers is that of a module. -/
theorem exists_modulePath {module : String} (parts : ∀ part ∈ splitOn ['.'] module.toList, isIdentifier part) :
    ∃ path : ModulePath, path.text = module ∧ ¬ path.near := by
  let names := (splitOn ['.'] module.toList).map String.ofList
  have identifiers : ∀ name ∈ names, isIdentifier name.toList := by
    intro name member
    obtain ⟨part, inParts, rfl⟩ := List.mem_map.mp member
    rw [String.toList_ofList]
    exact parts part inParts
  have notEmpty : names ≠ [] := by simpa [names, splitOn] using splitFrom_ne_nil
  have chars : names.map String.toList = splitOn ['.'] module.toList := by
    simp [names, Function.comp_def]
  refine ⟨⟨false, names, identifiers, .inr notEmpty⟩, ?_, Bool.false_ne_true⟩
  have dot : ".".toList = ['.'] := rfl
  rw [ModulePath.text, if_neg Bool.false_ne_true, String.empty_append, ← String.toList_inj,
    String.toList_intercalate, chars, dot, ← joinWith_eq_intercalate, joinWith_splitOn]

/-- The dots divide the name of a module into its parts. -/
theorem hasKeyword_text_iff {path : ModulePath} : HasKeyword path.text ↔ path.HasKeyword := by
  have parts (full : path.parts ≠ []) :
      (∃ part ∈ splitOn ['.'] (".".intercalate path.parts).toList, isKeyword part) ↔
        path.HasKeyword := by
    rw [splitOn_joined_parts full path.identifiers, ModulePath.HasKeyword]
    simp only [List.mem_map, exists_exists_and_eq_and]
    rfl
  rw [HasKeyword, ModulePath.text, String.toList_append]
  by_cases near : path.near
  · have dotted : splitOn ['.'] ((if path.near then "." else "").toList ++
        (".".intercalate path.parts).toList) =
          [] :: splitOn ['.'] (".".intercalate path.parts).toList := by
      rw [if_pos near]
      exact splitOn_append_separator [] _
    rw [dotted, List.exists_mem_cons_iff, or_iff_right (by decide)]
    by_cases none : path.parts = []
    · rw [ModulePath.HasKeyword, none]
      decide
    · exact parts none
  · rw [if_neg near]
    exact parts (path.notEmpty.resolve_left near)

end ProtocolGen.Source
