import Mathlib.Data.List.Infix
import Mathlib.Data.List.TakeWhile
import ProtocolGen.Toml.Reader

/-!
# Long integers in TOML

An integer is refused for its length only where a text has a run of so many digits, which low lines may
part. Every reader leaves an end of the text that it is given, so the run stands in the whole text.
-/

set_option autoImplicit false

namespace ProtocolGen.Toml

/-- A run of digits in a text that is too long for an integer. -/
def HasLongRun (text : List Char) (count : Nat) : Prop :=
  maximumDigits < count ∧ ∃ run, run <:+: text ∧ (∀ char ∈ run, char.isDigit ∨ char = '_') ∧
    run.countP Char.isDigit = count

theorem HasLongRun.of_suffix {text rest : List Char} {count : Nat} (within : rest <:+ text)
    (long : HasLongRun rest count) : HasLongRun text count := by
  obtain ⟨beyond, run, inside, rest⟩ := long
  exact ⟨beyond, run, inside.trans within.isInfix, rest⟩

/-- A step leaves an end of its text, and refuses an integer for its length only if the text has one. -/
def Ends {Result : Type} (text : List Char) (restOf : Result → List Char) :
    Except Fault Result → Prop
  | .ok result => restOf result <:+ text
  | .error (.tooManyDigits count) => HasLongRun text count
  | .error .malformed => True

/-- What is read stands before the rest. -/
abbrev Reads {Value : Type} (text : List Char) (reading : Reading Value) : Prop :=
  Ends text Prod.snd reading

/-- What is passed over stands before the rest. -/
abbrev Passes (text : List Char) (passing : Except Fault (List Char)) : Prop := Ends text id passing

section Ends

variable {First Result : Type} {text rest : List Char} {restOf : Result → List Char}
  {step : Except Fault Result}

theorem Ends.of_suffix (suffix : rest <:+ text) (ends : Ends rest restOf step) :
    Ends text restOf step :=
  match step, ends with
  | .ok _, ends => List.IsSuffix.trans ends suffix
  | .error (.tooManyDigits _), ends => HasLongRun.of_suffix suffix ends
  | .error .malformed, _ => trivial

theorem Ends.behind (char : Char) (ends : Ends rest restOf step) : Ends (char :: rest) restOf step :=
  ends.of_suffix (List.suffix_cons char rest)

theorem Ends.bind {restOfFirst : First → List Char} {first : Except Fault First}
    {next : First → Except Fault Result} (ends : Ends text restOfFirst first)
    (follows : ∀ found, restOfFirst found <:+ text → Ends (restOfFirst found) restOf (next found)) :
    Ends text restOf (first >>= next) :=
  match first, ends with
  | .ok found, suffix => (follows found suffix).of_suffix suffix
  | .error (.tooManyDigits _), ends => ends
  | .error .malformed, _ => trivial

theorem Ends.map {restOfFirst : First → List Char} {first : Except Fault First}
    {transform : First → Result} (ends : Ends text restOfFirst first)
    (same : ∀ found, restOf (transform found) <:+ restOfFirst found) :
    Ends text restOf (first.map transform) :=
  match first, ends with
  | .ok found, suffix => (same found).trans suffix
  | .error (.tooManyDigits _), ends => ends
  | .error .malformed, _ => trivial

/-- A fault that one step has said can be said of a step of another kind. -/
theorem Ends.error {restOfFirst : First → List Char} {fault : Fault}
    (ends : Ends text restOfFirst (.error fault : Except Fault First)) :
    Ends text restOf (.error fault : Except Fault Result) :=
  match fault, ends with
  | .tooManyDigits _, ends => ends
  | .malformed, _ => trivial

theorem ends_orMalformed (result : Option Result) :
    Ends text (fun _ => text) (orMalformed result) := by
  cases result with
  | none => trivial
  | some value => exact List.suffix_rfl

end Ends

/-! ## Spaces and comments -/

theorem skipSpaces_suffix (text : List Char) : skipSpaces text <:+ text := List.dropWhile_suffix _

theorem passes_skipComment (text : List Char) : Passes text (skipComment text) := by
  unfold skipComment
  split
  · next rest =>
    split
    · trivial
    · exact (List.dropWhile_suffix _).trans (List.suffix_cons '#' rest)
  · exact List.suffix_rfl

theorem passes_skipFiller (steps : Nat) (text : List Char) : Passes text (skipFiller steps text) := by
  induction steps generalizing text with
  | zero => trivial
  | succ steps ih =>
    have suffix : text.dropWhile isSpaceOrFeed <:+ text := List.dropWhile_suffix _
    rw [skipFiller]
    split
    · exact Ends.bind ((passes_skipComment _).of_suffix suffix) fun rest _ => ih rest
    · exact suffix

/-! ## Strings and keys -/

theorem reads_hexChar (length : Nat) (text : List Char) : Reads text (hexChar length text) := by
  unfold hexChar
  dsimp only
  split
  · split
    · exact List.drop_suffix _ _
    · trivial
  · trivial

theorem reads_escape (inLines : Bool) (text : List Char) : Reads text (escape inLines text) := by
  unfold escape
  split
  · next rest =>
    exact ((reads_hexChar 4 rest).behind 'u').map fun _ => List.suffix_rfl
  · next rest =>
    exact ((reads_hexChar 8 rest).behind 'U').map fun _ => List.suffix_rfl
  · next letter rest _ _ =>
    split
    · exact List.suffix_cons letter rest
    · split
      · split
        · exact List.nil_suffix
        · next rest' standing =>
          have suffix := (List.suffix_cons '\n' rest').trans (standing ▸ skipSpaces_suffix _)
          exact (List.dropWhile_suffix _).trans suffix
        · trivial
      · trivial
  · trivial

theorem reads_basicFrom (inLines : Bool) (steps : Nat) (content text : List Char) :
    Reads text (basicFrom inLines steps content text) := by
  fun_induction basicFrom inLines steps content text with
  | case1 | case2 | case8 => trivial
  | case3 _ _ char rest => exact List.suffix_cons char rest
  | case4 _ _ char _ _ rest => exact List.suffix_append [char, '"', '"'] rest
  | case5 _ _ char _ _ _ _ ih | case9 _ _ char _ _ _ _ ih => exact ih.behind char
  | case6 _ _ char rest _ _ fault refused =>
    have escaped := reads_escape inLines rest
    rw [refused] at escaped
    exact escaped.error.behind char
  | case7 _ _ char rest _ _ piece behind read ih =>
    have escaped := reads_escape inLines rest
    rw [read] at escaped
    exact (ih.of_suffix escaped).behind char

theorem reads_verbatim (text : List Char) : Reads text (verbatim text) := by
  unfold verbatim
  dsimp only
  have suffix := List.drop_suffix (text.takeWhile (· != '\'')).length text
  split
  · next rest standing =>
    split
    · trivial
    · rw [standing] at suffix
      exact (List.suffix_cons _ _).trans suffix
  · trivial

theorem reads_verbatimLinesFrom (content text : List Char) :
    Reads text (verbatimLinesFrom content text) := by
  fun_induction verbatimLinesFrom content text with
  | case1 content rest => exact List.suffix_append ['\'', '\'', '\''] rest
  | case2 | case4 => trivial
  | case3 content char rest _ _ ih => exact ih.behind char

theorem reads_lines (quote : Char) (text : List Char) : Reads text (lines quote text) := by
  have reads (text : List Char) : Reads text (if quote == '"' then
      basicFrom true (text.length + 1) [] text else verbatimLinesFrom [] text) := by
    split
    · exact reads_basicFrom true _ [] text
    · exact reads_verbatimLinesFrom [] text
  unfold lines
  split
  · next rest => exact ((reads rest).behind '\n').map fun _ => List.drop_suffix _ _
  · exact (reads text).map fun _ => List.drop_suffix _ _

theorem reads_keyPart (text : List Char) : Reads text (keyPart text) := by
  unfold keyPart
  split
  · next rest => exact ((reads_verbatim rest).behind '\'').map fun _ => List.suffix_rfl
  · next rest => exact ((reads_basicFrom false _ [] rest).behind '"').map fun _ => List.suffix_rfl
  · dsimp only
    split
    · trivial
    · exact List.drop_suffix _ _

theorem reads_keyFrom (steps : Nat) (parts : List Text) (text : List Char) :
    Reads text (keyFrom steps parts text) := by
  induction steps generalizing parts text with
  | zero => trivial
  | succ steps ih =>
    have part := reads_keyPart text
    rw [keyFrom]
    split
    · next fault refused =>
      rw [refused] at part
      exact part.error
    · next found rest read =>
      rw [read] at part
      have suffix := (skipSpaces_suffix rest).trans part
      split
      · next more standing =>
        rw [standing] at suffix
        have behind := (List.suffix_cons '.' more).trans suffix
        exact (ih _ _).of_suffix ((skipSpaces_suffix more).trans behind)
      · exact suffix

theorem reads_key (text : List Char) : Reads text (key text) := reads_keyFrom _ [] text

/-! ## Numbers -/

/-- Some digits at the head of a text, which low lines may part, and the rest. -/
def TakesDigits (isDigit : Char → Bool) (text digits rest : List Char) : Prop :=
  ∃ run, text = run ++ rest ∧ (∀ char ∈ run, isDigit char ∨ char = '_') ∧
    run.countP isDigit = digits.length

namespace TakesDigits

variable {isDigit : Char → Bool} {text digits rest : List Char}

theorem none (isDigit : Char → Bool) (rest : List Char) : TakesDigits isDigit rest [] rest :=
  ⟨[], rfl, by simp, rfl⟩

theorem digit {char : Char} (isDigit_char : isDigit char) (takes : TakesDigits isDigit text digits rest) :
    TakesDigits isDigit (char :: text) (char :: digits) rest := by
  obtain ⟨run, rfl, chars, count⟩ := takes
  refine ⟨char :: run, rfl, List.forall_mem_cons.mpr ⟨.inl isDigit_char, chars⟩, ?_⟩
  rw [List.countP_cons_of_pos isDigit_char, count, List.length_cons]

theorem lowLine (notDigit : isDigit '_' = false) (takes : TakesDigits isDigit text digits rest) :
    TakesDigits isDigit ('_' :: text) digits rest := by
  obtain ⟨run, rfl, chars, count⟩ := takes
  refine ⟨'_' :: run, rfl, List.forall_mem_cons.mpr ⟨.inr rfl, chars⟩, ?_⟩
  rw [List.countP_cons_of_neg (by simp [notDigit]), count]

theorem suffix (takes : TakesDigits isDigit text digits rest) : rest <:+ text := by
  obtain ⟨run, rfl, -⟩ := takes
  exact List.suffix_append run rest

theorem hasLongRun (takes : TakesDigits Char.isDigit text digits rest)
    (beyond : maximumDigits < digits.length) : HasLongRun text digits.length := by
  obtain ⟨run, rfl, chars, count⟩ := takes
  exact ⟨beyond, run, (List.prefix_append run rest).isInfix, chars, count⟩

end TakesDigits

section Digits

variable {isDigit : Char → Bool} {text digits rest : List Char}

theorem takesDigits_spacedDigits (notDigit : isDigit '_' = false) (text : List Char) :
    TakesDigits isDigit text (spacedDigits isDigit text).1 (spacedDigits isDigit text).2 := by
  fun_induction spacedDigits isDigit text with
  | case1 char text isDigit_char digits rest taken ih =>
    rw [taken] at ih
    exact (ih.digit isDigit_char).lowLine notDigit
  | case3 char text _ isDigit_char digits rest taken ih =>
    rw [taken] at ih
    exact ih.digit isDigit_char
  | case2 | case4 | case5 => exact .none isDigit _

theorem takesDigits_digitRun? (notDigit : isDigit '_' = false)
    (read : digitRun? isDigit text = some (digits, rest)) : TakesDigits isDigit text digits rest := by
  unfold digitRun? at read
  split at read
  · next char text =>
    split at read
    · next isDigit_char =>
      cases read
      exact (takesDigits_spacedDigits notDigit text).digit isDigit_char
    · cases read
  · cases read

end Digits

section Moments

variable {text rest : List Char}

theorem fixedDigits?_suffix {count number : Nat}
    (read : fixedDigits? count text = some (number, rest)) : rest <:+ text := by
  unfold fixedDigits? at read
  dsimp only at read
  split at read <;> cases read
  exact List.drop_suffix _ _

theorem behind?_suffix {char : Char} (read : behind? char text = some rest) : rest <:+ text := by
  unfold behind? at read
  split at read
  · split at read <;> cases read
    exact List.suffix_cons _ _
  · cases read

theorem behindDigits_suffix {char : Char} {count number : Nat}
    (read : (behind? char text).bind (fixedDigits? count) = some (number, rest)) : rest <:+ text := by
  obtain ⟨behind, passed, read⟩ := Option.bind_eq_some_iff.mp read
  exact (fixedDigits?_suffix read).trans (behind?_suffix passed)

theorem clock?_suffix {clock : Clock} (read : clock? text = some (clock, rest)) : rest <:+ text := by
  unfold clock? at read
  obtain ⟨⟨hour, behindHour⟩, hourRead, read⟩ := Option.bind_eq_some_iff.mp read
  obtain ⟨⟨minute, behindMinute⟩, minuteRead, read⟩ := Option.bind_eq_some_iff.mp read
  obtain ⟨⟨second, behindSecond⟩, secondRead, read⟩ := Option.bind_eq_some_iff.mp read
  have suffix := ((behindDigits_suffix secondRead).trans (behindDigits_suffix minuteRead)).trans
    (fixedDigits?_suffix hourRead)
  dsimp only at read
  split at read
  · cases read
  · cases read
    split
    · exact suffix
    · exact (List.drop_suffix _ _).trans suffix

theorem distance?_suffix {distance : Int} (read : distance? text = some (distance, rest)) :
    rest <:+ text := by
  unfold distance? at read
  split at read
  · cases read
    exact List.suffix_cons _ _
  · cases read
    exact List.suffix_cons _ _
  · next sign more _ _ =>
    split at read
    · obtain ⟨⟨hours, behindHours⟩, hoursRead, read⟩ := Option.bind_eq_some_iff.mp read
      obtain ⟨⟨minutes, behindMinutes⟩, minutesRead, read⟩ := Option.bind_eq_some_iff.mp read
      have suffix := (behindDigits_suffix minutesRead).trans (fixedDigits?_suffix hoursRead)
      dsimp only at read
      split at read <;> cases read
      exact suffix.trans (List.suffix_cons sign more)
    · cases read
  · cases read

theorem day?_suffix {day : Day} (read : day? text = some (day, rest)) : rest <:+ text := by
  unfold day? at read
  obtain ⟨⟨year, behindYear⟩, yearRead, read⟩ := Option.bind_eq_some_iff.mp read
  obtain ⟨⟨month, behindMonth⟩, monthRead, read⟩ := Option.bind_eq_some_iff.mp read
  obtain ⟨⟨date, behindDate⟩, dateRead, read⟩ := Option.bind_eq_some_iff.mp read
  have suffix := ((behindDigits_suffix dateRead).trans (behindDigits_suffix monthRead)).trans
    (fixedDigits?_suffix yearRead)
  dsimp only at read
  split at read <;> cases read
  exact suffix

theorem timed_suffix {clock : Clock} {behindDay : List Char}
    (timed : (match behindDay with
      | mark :: more => if mark == 'T' || mark == 't' || mark == ' ' then clock? more else none
      | [] => none) = some (clock, rest)) : rest <:+ behindDay := by
  split at timed
  · split at timed
    · exact (clock?_suffix timed).trans (List.suffix_cons _ _)
    · cases timed
  · cases timed

theorem reads_moment? {reading : Reading Data} (read : moment? text = some reading) :
    Reads text reading := by
  revert read
  fun_cases moment? text with
  | case1 =>
    intro read
    cases read
    trivial
  | case2 day behindDay dayRead =>
    intro read
    cases read
    exact day?_suffix dayRead
  | case3 day behindDay dayRead _ _ clock behindClock timed distance _ distanceRead =>
    intro read
    cases read
    exact ((distance?_suffix distanceRead).trans (timed_suffix timed)).trans (day?_suffix dayRead)
  | case4 day behindDay dayRead _ _ clock behindClock timed =>
    intro read
    cases read
    exact (timed_suffix timed).trans (day?_suffix dayRead)
  | case5 =>
    intro read
    obtain ⟨⟨clock, rest⟩, clockRead, rfl⟩ := Option.map_eq_some_iff.mp read
    exact clock?_suffix clockRead

end Moments

section Scalars

variable {text rest : List Char}

theorem basedInteger?_suffix {data : Data} (read : basedInteger? text = some (data, rest)) :
    rest <:+ text := by
  unfold basedInteger? at read
  split at read
  · next mark more =>
    obtain ⟨⟨digits, behind⟩, digitsRead, same⟩ := Option.map_eq_some_iff.mp read
    cases same
    have notDigit : hexValue? '_' = none := by decide
    have suffix := (takesDigits_digitRun? (by simp [notDigit]) digitsRead).suffix
    exact suffix.trans (List.suffix_append ['0', mark] more)
  · cases read

theorem exponent?_suffix {power : Int} (read : exponent? text = some (power, rest)) :
    rest <:+ text := by
  unfold exponent? at read
  split at read
  · next letter more =>
    split at read
    · obtain ⟨⟨digits, behind⟩, digitsRead, same⟩ := Option.map_eq_some_iff.mp read
      cases same
      have suffix := (takesDigits_digitRun? (by decide) digitsRead).suffix
      refine (suffix.trans ?_).trans (List.suffix_cons letter more)
      split
      · exact List.drop_suffix _ _
      · exact List.suffix_rfl
    · cases read
  · cases read

theorem fraction_suffix {digits : List Char}
    (read : (behind? '.' text).bind (digitRun? Char.isDigit) = some (digits, rest)) :
    rest <:+ text := by
  obtain ⟨behind, passed, read⟩ := Option.bind_eq_some_iff.mp read
  exact (takesDigits_digitRun? (by decide) read).suffix.trans (behind?_suffix passed)

theorem getD_suffix {Value : Type} {reading : Option (Value × List Char)} {value found : Value}
    (suffix : ∀ value rest, reading = some (value, rest) → rest <:+ text)
    (taken : reading.getD (value, text) = (found, rest)) : rest <:+ text := by
  cases reading with
  | none =>
    cases taken
    exact List.suffix_rfl
  | some pair =>
    cases taken
    exact suffix _ _ rfl

theorem unsigned_suffix (text : List Char) (signed : Bool) :
    (if signed then text.drop 1 else text) <:+ text := by
  split
  · exact List.drop_suffix _ _
  · exact List.suffix_rfl

theorem takesDigits_whole {digits : List Char}
    (read : (match text with
      | '0' :: rest => some (['0'], rest)
      | _ => digitRun? Char.isDigit text) = some (digits, rest)) :
    TakesDigits Char.isDigit text digits rest := by
  split at read
  · cases read
    exact (TakesDigits.none Char.isDigit rest).digit (by decide)
  · exact takesDigits_digitRun? (by decide) read

theorem reads_decimalNumber? {reading : Reading Data} (read : decimalNumber? text = some reading) :
    Reads text reading := by
  unfold decimalNumber? at read
  obtain ⟨⟨digits, behindWhole⟩, wholeRead, rfl⟩ := Option.map_eq_some_iff.mp read
  have takes := takesDigits_whole wholeRead
  have unsigned := unsigned_suffix text (text.head? == some '-' || text.head? == some '+')
  dsimp only
  cases fractionRead :
      ((behind? '.' behindWhole).bind (digitRun? Char.isDigit)).getD ([], behindWhole) with
  | mk decimals behindFraction =>
    dsimp only
    cases exponentRead : (exponent? behindFraction).getD (0, behindFraction) with
    | mk power rest =>
      have suffix := getD_suffix (fun _ _ => exponent?_suffix) exponentRead
      have suffix := suffix.trans (getD_suffix (fun _ _ => fraction_suffix) fractionRead)
      have suffix := (suffix.trans takes.suffix).trans unsigned
      dsimp only
      split
      · split
        · next beyond => exact (takes.hasLongRun beyond).of_suffix unsigned
        · exact suffix
      · exact suffix

theorem word?_suffix {data : Data} (read : word? text = some (data, rest)) : rest <:+ text := by
  obtain ⟨entry, -, found⟩ := List.exists_of_findSome?_eq_some read
  dsimp only at found
  split at found <;> cases found
  exact List.drop_suffix _ _

theorem reads_scalar (text : List Char) : Reads text (scalar text) := by
  unfold scalar
  split
  · next reading read => exact reads_moment? read
  · split
    · next found read => exact basedInteger?_suffix read
    · split
      · next reading read => exact reads_decimalNumber? read
      · split
        · next found read => exact word?_suffix read
        · trivial

end Scalars

/-! ## Values -/

section Steps

variable {steps : Nat} (values : ∀ text, Reads text (value steps text))
  (itemLists : ∀ done text, Reads text (items steps done text))
  (pairs : ∀ text, Reads text (pair steps text))
  (entryLists : ∀ entries closed text, Reads text (inlineEntries steps entries closed text))

include itemLists entryLists in
theorem reads_value_succ (text : List Char) : Reads text (value (steps + 1) text) := by
  unfold value
  split
  · next rest =>
    exact ((reads_lines '"' rest).of_suffix (List.suffix_append ['"', '"', '"'] rest)).map
      fun _ => List.suffix_rfl
  · next rest =>
    exact ((reads_lines '\'' rest).of_suffix (List.suffix_append ['\'', '\'', '\''] rest)).map
      fun _ => List.suffix_rfl
  · next rest _ => exact ((reads_basicFrom false _ [] rest).behind '"').map fun _ => List.suffix_rfl
  · next rest _ => exact ((reads_verbatim rest).behind '\'').map fun _ => List.suffix_rfl
  · next rest =>
    have passed := (passes_skipFiller (rest.length + 1) rest).behind '['
    split
    · next fault refused =>
      rw [refused] at passed
      exact passed.error
    · next more standing =>
      rw [standing] at passed
      exact (List.suffix_cons ']' more).trans passed
    · next more _ standing =>
      rw [standing] at passed
      exact (itemLists [] more).of_suffix passed
  · next rest =>
    have suffix := (skipSpaces_suffix rest).trans (List.suffix_cons '\x7b' rest)
    split
    · next more standing =>
      rw [standing] at suffix
      exact (List.suffix_cons _ more).trans suffix
    · exact (entryLists [] [] _).of_suffix suffix
  · exact reads_scalar text

include values itemLists in
theorem reads_items_succ (done : List Data) (text : List Char) :
    Reads text (items (steps + 1) done text) := by
  rw [items]
  refine (values text).bind fun (item, rest) _ => ?_
  refine (passes_skipFiller _ _).bind fun behindItem _ => ?_
  dsimp only [id]
  split
  · next more _ => exact List.suffix_cons ']' more
  · next more _ =>
    refine Ends.behind ',' ((passes_skipFiller _ _).bind fun behindComma _ => ?_)
    dsimp only [id]
    split
    · next last _ => exact List.suffix_cons ']' last
    · exact itemLists _ _
  · trivial

include values in
theorem reads_pair_succ (text : List Char) : Reads text (pair (steps + 1) text) := by
  rw [pair]
  refine (reads_key text).bind fun (way, rest) _ => ?_
  dsimp only
  split
  · next more _ =>
    refine Ends.behind '=' (Ends.bind ((values _).of_suffix (skipSpaces_suffix more)) ?_)
    exact fun found _ => List.suffix_rfl
  · trivial

include pairs entryLists in
theorem reads_inlineEntries_succ (entries : Entries) (closed : List (List Text)) (text : List Char) :
    Reads text (inlineEntries (steps + 1) entries closed text) := by
  rw [inlineEntries]
  refine (pairs text).bind fun ((way, found), rest) _ => ?_
  dsimp only
  split
  · trivial
  · refine (ends_orMalformed _).bind fun entries _ => ?_
    have suffix := skipSpaces_suffix rest
    split
    · next more standing =>
      rw [standing] at suffix
      exact (List.suffix_cons _ more).trans suffix
    · next more standing =>
      rw [standing] at suffix
      have behind := (skipSpaces_suffix more).trans ((List.suffix_cons ',' more).trans suffix)
      exact (entryLists _ _ _).of_suffix behind
    · trivial

end Steps

/-- Every reader of values, with a number of steps at its disposal, leaves an end of its text. -/
theorem reads_values (steps : Nat) :
    (∀ text, Reads text (value steps text)) ∧
    (∀ done text, Reads text (items steps done text)) ∧
    (∀ text, Reads text (pair steps text)) ∧
    ∀ entries closed text, Reads text (inlineEntries steps entries closed text) := by
  induction steps with
  | zero =>
    refine ⟨fun _ => ?_, fun _ _ => ?_, fun _ => ?_, fun _ _ _ => ?_⟩
    · rw [value]
      trivial
    · rw [items]
      trivial
    · rw [pair]
      trivial
    · rw [inlineEntries]
      trivial
  | succ steps ih =>
    obtain ⟨values, itemLists, pairs, entryLists⟩ := ih
    exact ⟨reads_value_succ itemLists entryLists, reads_items_succ values itemLists,
      reads_pair_succ values, reads_inlineEntries_succ pairs entryLists⟩

/-! ## Statements -/

/-- A change to what is read so far reads nothing. -/
abbrev Keeps (text : List Char) (change : Except Fault Progress) : Prop :=
  Ends text (fun _ => text) change

section Statements

variable {text : List Char} (progress : Progress) (way : List Text)

theorem keeps_addPair (found : Data) : Keeps text (progress.addPair way found) := by
  unfold Progress.addPair
  dsimp only
  split
  · trivial
  · split
    · trivial
    · exact (ends_orMalformed _).bind fun entries _ => List.suffix_rfl

theorem keeps_openTable : Keeps text (progress.openTable way) := by
  unfold Progress.openTable
  split
  · trivial
  · exact (ends_orMalformed _).bind fun entries _ => List.suffix_rfl

theorem keeps_openItem : Keeps text (progress.openItem way) := by
  unfold Progress.openItem
  split
  · trivial
  · exact (ends_orMalformed _).bind fun entries _ => List.suffix_rfl

theorem reads_statement (text : List Char) : Reads text (statement progress text) := by
  unfold statement
  split
  · next rest =>
    have key := ((reads_key (skipSpaces rest)).of_suffix (skipSpaces_suffix rest)).of_suffix
      (List.suffix_append ['[', '['] rest)
    refine Ends.bind key fun (way, behind) _ => ?_
    refine (keeps_openItem progress.settle way).bind fun opened _ => ?_
    split
    · next more _ _ => exact List.suffix_append [']', ']'] more
    · trivial
  · next rest _ =>
    have key := ((reads_key (skipSpaces rest)).of_suffix (skipSpaces_suffix rest)).behind '['
    refine Ends.bind key fun (way, behind) _ => ?_
    refine (keeps_openTable progress.settle way).bind fun opened _ => ?_
    split
    · next more _ _ => exact List.suffix_cons ']' more
    · trivial
  · exact List.suffix_rfl
  · exact List.suffix_rfl
  · refine Ends.bind ((reads_values _).2.2.1 text) fun ((way, found), behind) _ => ?_
    exact (keeps_addPair progress way found).bind fun added _ => List.suffix_rfl

theorem ends_readFrom (steps : Nat) (text : List Char) :
    Ends text (fun _ => []) (readFrom steps progress text) := by
  induction steps generalizing progress text with
  | zero => trivial
  | succ steps ih =>
    have suffix := skipSpaces_suffix text
    unfold readFrom
    split
    · exact List.nil_suffix
    · next rest standing =>
      rw [standing] at suffix
      exact (ih progress rest).of_suffix ((List.suffix_cons _ rest).trans suffix)
    · refine Ends.of_suffix suffix (Ends.bind (reads_statement progress _) fun (next, rest) _ => ?_)
      refine Ends.bind ((passes_skipComment _).of_suffix (skipSpaces_suffix rest)) fun behind _ => ?_
      dsimp only [id]
      split
      · exact List.nil_suffix
      · next more _ => exact (ih next more).behind '\n'
      · trivial

end Statements

/-- An integer is refused for its length only where a text has so long a run of digits. -/
theorem hasLongRun_of_read {text : List Char} {count : Nat}
    (refused : read text = .error (.tooManyDigits count)) : HasLongRun (joinLineEnds text) count := by
  have ends := ends_readFrom ⟨[], [], [], [], []⟩ ((joinLineEnds text).length + 1) (joinLineEnds text)
  unfold read at refused
  dsimp only at refused
  cases found : readFrom ((joinLineEnds text).length + 1) ⟨[], [], [], [], []⟩ (joinLineEnds text) with
  | ok progress =>
    rw [found] at refused
    cases refused
  | error fault =>
    rw [found] at refused ends
    cases refused
    exact ends

end ProtocolGen.Toml
