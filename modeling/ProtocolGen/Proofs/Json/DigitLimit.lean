import Mathlib.Data.List.Infix
import Mathlib.Data.List.TakeWhile
import ProtocolGen.Json.Reader

/-!
# Long integers in JSON

An integer is refused for its length only where a text has a run of so many digits. Every reader leaves
an end of the text that it is given, so the run stands in the whole text.
-/

set_option autoImplicit false

namespace ProtocolGen.Json

/-- A run of digits in a text that is too long for an integer. -/
def HasLongRun (text : Text) (count : Nat) : Prop :=
  maximumDigits < count ∧
    ∃ run, run <:+: text ∧ run.length = count ∧ ∀ point ∈ run, (digit? point).isSome

theorem HasLongRun.of_suffix {text rest : Text} {count : Nat} (within : rest <:+ text)
    (long : HasLongRun rest count) : HasLongRun text count := by
  obtain ⟨beyond, run, inside, rest⟩ := long
  exact ⟨beyond, run, inside.trans within.isInfix, rest⟩

/-- A reading leaves an end of its text, and refuses an integer for its length only if there is one. -/
def Within {Value : Type} (text : Text) : Except Stop (Value × Text) → Prop
  | .ok (_, rest) => rest <:+ text
  | .error (.tooManyDigits count) => HasLongRun text count
  | .error (.expected _ _) => True

section Within

variable {Value Result : Type} {text rest : Text} {reading : Except Stop (Value × Text)}

theorem Within.of_suffix (suffix : rest <:+ text) (within : Within rest reading) :
    Within text reading := by
  match reading, within with
  | .ok _, within => exact List.IsSuffix.trans within suffix
  | .error (.tooManyDigits _), within => exact HasLongRun.of_suffix suffix within
  | .error (.expected _ _), _ => trivial

theorem Within.map (within : Within text reading) (transform : Value → Result) :
    Within text (reading.map fun (value, rest) => (transform value, rest)) := by
  match reading, within with
  | .ok _, within => exact within
  | .error (.tooManyDigits _), within => exact within
  | .error (.expected _ _), _ => trivial

theorem Within.error {stop : Stop} (within : Within text (.error stop : Except Stop (Value × Text))) :
    Within text (.error stop : Except Stop (Result × Text)) :=
  match stop, within with
  | .tooManyDigits _, within => within
  | .expected _ _, _ => trivial

theorem skipSpaces_suffix (text : Text) : skipSpaces text <:+ text := List.dropWhile_suffix _

/-- What stands behind spaces and one more code point is an end of a text. -/
theorem suffix_of_skipSpaces {mark : CodePoint} {more : Text} (standing : skipSpaces text = mark :: more) :
    more <:+ text :=
  (List.suffix_cons mark more).trans (standing ▸ skipSpaces_suffix text)

end Within

/-! ## Strings -/

theorem exists_expected_of_unicodeEscape {text : Text} {stop : Stop}
    (refused : unicodeEscape text = .error stop) : ∃ what left, stop = .expected what left := by
  revert refused
  fun_cases unicodeEscape text with
  | case1 | case2 | case3 =>
    intro refused
    cases refused
    exact ⟨_, _, rfl⟩
  | _ =>
    intro refused
    cases refused

section Strings

variable {content text found rest : Text} {skip : Nat}

theorem stringFrom_suffix (read : stringFrom content skip text = .ok (found, rest)) :
    rest <:+ text := by
  fun_induction stringFrom content skip text with
  | case1 => cases read
  | case2 content skip head text ih => exact (ih read).trans (List.suffix_cons head text)
  | case3 content head =>
    cases read
    exact List.suffix_cons head rest
  | case4 => cases read
  | case5 => cases read
  | case6 content head _ _ letter more _ point length _ ih =>
    exact (ih read).trans (List.suffix_cons head (letter :: more))
  | case7 content head _ _ letter more _ char _ ih =>
    exact (ih read).trans (List.suffix_cons head (letter :: more))
  | case8 => cases read
  | case9 => cases read
  | case10 content head text _ _ _ ih => exact (ih read).trans (List.suffix_cons head text)

theorem exists_expected_of_stringFrom {stop : Stop}
    (refused : stringFrom content skip text = .error (some stop)) :
    ∃ what left, stop = .expected what left := by
  fun_induction stringFrom content skip text with
  | case1 | case3 | case4 => cases refused
  | case2 _ _ _ _ ih => exact ih refused
  | case5 _ _ _ _ letter more _ reason escape =>
    cases refused
    exact exists_expected_of_unicodeEscape escape
  | case6 _ _ _ _ _ _ _ _ _ _ ih | case7 _ _ _ _ _ _ _ _ _ ih => exact ih refused
  | case8 | case9 =>
    cases refused
    exact ⟨_, _, rfl⟩
  | case10 _ _ _ _ _ _ ih => exact ih refused

theorem within_string (text : Text) : Within text (string text) := by
  unfold string
  split
  · next pair read => exact stringFrom_suffix read
  · next stop refused =>
    obtain ⟨what, left, rfl⟩ := exists_expected_of_stringFrom refused
    trivial
  · trivial

end Strings

/-! ## Numbers -/

/-- A run of digits at the head of a text. -/
def BeginsWithDigits (text : Text) (count : Nat) : Prop :=
  ∃ run, run <+: text ∧ run.length = count ∧ ∀ point ∈ run, (digit? point).isSome

theorem digits_suffix (text : Text) : (digits text).2 <:+ text := List.drop_suffix _ _

theorem beginsWithDigits_digits (text : Text) : BeginsWithDigits text (digits text).1.length := by
  let isDigit (point : CodePoint) : Bool := (digit? point).isSome
  have all : ∀ point ∈ text.takeWhile isDigit, isDigit point :=
    fun point member => List.mem_takeWhile_imp member
  refine ⟨text.takeWhile isDigit, List.takeWhile_prefix _, ?_, all⟩
  exact (List.filterMap_length_eq_length.mpr all).symm

theorem wholeDigits?_spec {text rest : Text} {found : List Nat}
    (read : wholeDigits? text = some (found, rest)) :
    rest <:+ text ∧ BeginsWithDigits text found.length := by
  cases text with
  | nil => cases read
  | cons head text =>
    unfold wholeDigits? at read
    dsimp only at read
    split at read
    · next zero =>
      cases read
      refine ⟨List.suffix_cons head rest, [head], ?_, rfl, ?_⟩
      · exact List.prefix_append [head] rest
      · simp [zero]
    · cases read
      exact ⟨digits_suffix _, beginsWithDigits_digits _⟩
    · cases read

theorem fractionDigits?_suffix {text rest : Text} {found : List Nat}
    (read : fractionDigits? text = some (found, rest)) : rest <:+ text := by
  cases text with
  | nil => cases read
  | cons point text =>
    unfold fractionDigits? at read
    dsimp only at read
    split at read
    · split at read
      · cases read
      · cases read
        exact (digits_suffix text).trans (List.suffix_cons point text)
    · cases read

theorem exponentPart?_suffix {text rest : Text} {power : Int}
    (read : exponentPart? text = some (power, rest)) : rest <:+ text := by
  revert read
  fun_cases exponentPart? text with
  | case2 letter text _ negative unsigned signed found more _ taken =>
    intro read
    cases read
    have unsignedSuffix : unsigned <:+ text := by
      split at signed
      · split at signed
        · cases signed
          exact List.suffix_cons _ _
        · split at signed <;> cases signed
          · exact List.suffix_cons _ _
          · exact List.suffix_rfl
      · cases signed
        exact List.suffix_rfl
    have taken : rest = (digits unsigned).2 := by rw [taken]
    rw [taken]
    exact ((digits_suffix unsigned).trans unsignedSuffix).trans (List.suffix_cons letter text)
  | _ =>
    intro read
    cases read

theorem unsigned_suffix {text unsigned : Text} {negative : Bool}
    (signed : (match text with
      | sign :: rest => if isChar '-' sign then (true, rest) else (false, text)
      | [] => (false, text)) = (negative, unsigned)) : unsigned <:+ text := by
  split at signed
  · split at signed <;> cases signed
    · exact List.suffix_cons _ _
    · exact List.suffix_rfl
  · cases signed
    exact List.suffix_rfl

theorem getD_suffix {Value : Type} {reading : Option (Value × Text)} {value found : Value}
    {text rest : Text} (suffix : ∀ value rest, reading = some (value, rest) → rest <:+ text)
    (taken : reading.getD (value, text) = (found, rest)) : rest <:+ text := by
  cases reading with
  | none =>
    cases taken
    exact List.suffix_rfl
  | some pair =>
    cases taken
    exact suffix _ _ rfl

theorem within_number? {text : Text} {reading : Except Stop (Data × Text)}
    (read : number? text = some reading) : Within text reading := by
  revert read
  fun_cases number? text with
  | case1 =>
    intro read
    cases read
  | case2 negative unsigned signed whole rest wholeRead _ _ _ _ _ _ _ _ _ beyond =>
    intro read
    cases read
    obtain ⟨run, begins, rest⟩ := (wholeDigits?_spec wholeRead).2
    have long : HasLongRun unsigned whole.length := ⟨beyond, run, begins.isInfix, rest⟩
    exact long.of_suffix (unsigned_suffix signed)
  | case3 negative unsigned signed _ rest whole fraction _ later taken exponent _ last tail
  | case4 negative unsigned signed _ rest whole fraction _ later taken exponent _ last tail =>
    intro read
    cases read
    have suffix := getD_suffix (fun _ _ => fractionDigits?_suffix) taken
    have suffix := (getD_suffix (fun _ _ => exponentPart?_suffix) tail).trans suffix
    exact (suffix.trans (wholeDigits?_spec whole).1).trans (unsigned_suffix signed)

theorem afterWord?_suffix {word : List Char} {text rest : Text}
    (read : afterWord? word text = some rest) : rest <:+ text := by
  fun_induction afterWord? word text with
  | case1 rest =>
    cases read
    exact List.suffix_rfl
  | case2 => cases read
  | case3 char word head text _ ih => exact (ih read).trans (List.suffix_cons head text)
  | case4 => cases read

theorem word?_suffix {text rest : Text} {data : Data} (read : word? text = some (data, rest)) :
    rest <:+ text := by
  obtain ⟨entry, -, found⟩ := List.exists_of_findSome?_eq_some read
  obtain ⟨after, standing, same⟩ := Option.map_eq_some_iff.mp found
  cases same
  exact afterWord?_suffix standing

/-! ## Values -/

section Steps

variable {steps : Nat} (values : ∀ text, Within text (value steps text))
  (itemLists : ∀ done text, Within text (items steps done text))
  (entryLists : ∀ done text, Within text (entries steps done text))

include itemLists entryLists in
theorem within_value_succ (text : Text) : Within text (value (steps + 1) text) := by
  cases text with
  | nil => trivial
  | cons head rest =>
    have tail := List.suffix_cons head rest
    rw [value]
    split
    · exact ((within_string rest).of_suffix tail).map Data.text
    · split
      · split
        · next none => exact (entryLists [] []).of_suffix List.nil_suffix
        · next close more standing =>
          split
          · exact (suffix_of_skipSpaces standing).trans tail
          · rw [← standing]
            exact (entryLists [] _).of_suffix ((skipSpaces_suffix rest).trans tail)
      · split
        · split
          · next none => exact (itemLists [] []).of_suffix List.nil_suffix
          · next close more standing =>
            split
            · exact (suffix_of_skipSpaces standing).trans tail
            · rw [← standing]
              exact (itemLists [] _).of_suffix ((skipSpaces_suffix rest).trans tail)
        · split
          · next found standing => exact word?_suffix standing
          · split
            · next reading standing => exact within_number? standing
            · trivial

include values itemLists in
theorem within_items_succ (done : List Data) (text : Text) :
    Within text (items (steps + 1) done text) := by
  have item := values text
  rw [items]
  split
  · next stop refused =>
    rw [refused] at item
    exact item
  · next found rest read =>
    rw [read] at item
    split
    · trivial
    · next mark more standing =>
      have suffix := (suffix_of_skipSpaces standing).trans item
      split
      · exact suffix
      · split
        · exact (itemLists _ _).of_suffix ((skipSpaces_suffix more).trans suffix)
        · trivial

include values entryLists in
theorem within_entries_succ (done : List (Text × Data)) (text : Text) :
    Within text (entries (steps + 1) done text) := by
  cases text with
  | nil => trivial
  | cons quote text =>
    have tail := List.suffix_cons quote text
    have key := (within_string text).of_suffix tail
    rw [entries]
    split
    · trivial
    · split
      · next stop refused =>
        rw [refused] at key
        exact key.error
      · next name rest read =>
        rw [read] at key
        split
        · trivial
        · next colon behind standing =>
          have behindKey := (suffix_of_skipSpaces standing).trans key
          have found := (values (skipSpaces behind)).of_suffix
            ((skipSpaces_suffix behind).trans behindKey)
          split
          · trivial
          · split
            · next stop refused =>
              rw [refused] at found
              exact found
            · next data rest read =>
              rw [read] at found
              split
              · trivial
              · next mark more standing =>
                have suffix := (suffix_of_skipSpaces standing).trans found
                split
                · exact suffix
                · split
                  · exact (entryLists _ _).of_suffix ((skipSpaces_suffix more).trans suffix)
                  · trivial

end Steps

theorem within_values (steps : Nat) :
    (∀ text, Within text (value steps text)) ∧
    (∀ done text, Within text (items steps done text)) ∧
    ∀ done text, Within text (entries steps done text) := by
  induction steps with
  | zero => exact ⟨fun _ => trivial, fun _ _ => trivial, fun _ _ => trivial⟩
  | succ steps ih =>
    obtain ⟨values, itemLists, entryLists⟩ := ih
    exact ⟨within_value_succ itemLists entryLists, within_items_succ values itemLists,
      within_entries_succ values entryLists⟩

/-- An integer is refused for its length only where a text has so long a run of digits. -/
theorem hasLongRun_of_read {text : Text} {count : Nat}
    (refused : read text = .error (.tooManyDigits count)) : HasLongRun text count := by
  have located {stop : Stop} (same : stop.locate text = .tooManyDigits count) :
      stop = .tooManyDigits count := by
    cases stop with
    | expected what left => cases same
    | tooManyDigits other =>
      cases same
      rfl
  have whole : whole text = .error (.tooManyDigits count) := by
    unfold read at refused
    split at refused
    · cases refused
    · unfold readDecoded at refused
      cases found : whole text with
      | ok data =>
        rw [found] at refused
        cases refused
      | error stop =>
        rw [found] at refused
        rw [located (Except.error.inj refused)]
  have within := ((within_values (2 * text.length + 1)).1 (skipSpaces text)).of_suffix
    (skipSpaces_suffix text)
  unfold Json.whole at whole
  split at whole
  · next stop found =>
    rw [found] at within
    rw [Except.error.inj whole] at within
    exact within
  · split at whole <;> cases whole

/-! ## A long integer by itself -/

section Alone

variable {head : CodePoint} {rest : Text}

theorem isChar_of_isDigit {char : Char} (other : ¬ char.isDigit) (isDigit : (digit? head).isSome) :
    isChar char head = false := by
  cases head with
  | surrogate index => rfl
  | scalar found =>
    rw [isChar, beq_eq_false_iff_ne]
    rintro rfl
    simp [digit?, other] at isDigit

theorem word?_of_isDigit (isDigit : (digit? head).isSome) : word? (head :: rest) = none := by
  refine List.findSome?_eq_none_iff.mpr fun entry member => ?_
  have first : ∀ entry ∈ wordValues, ∃ char word, entry.1.toList = char :: word ∧ ¬ char.isDigit := by
    simp [wordValues]
  obtain ⟨char, word, chars, other⟩ := first entry member
  simp [chars, afterWord?, isChar_of_isDigit other isDigit]

theorem digits_of_isDigit {text : Text} (all : ∀ point ∈ text, (digit? point).isSome) :
    digits text = (text.filterMap digit?, []) := by
  have taken : (text.takeWhile fun point => (digit? point).isSome) = text :=
    List.takeWhile_eq_self_iff.mpr all
  rw [digits, taken, List.drop_length]

/-- Digits that begin with no zero are refused for their length, when they are too many. -/
theorem read_of_isDigit (all : ∀ point ∈ head :: rest, (digit? point).isSome)
    (first : digit? head ≠ some 0) (beyond : maximumDigits < (head :: rest).length) :
    read (head :: rest) = .error (.tooManyDigits (head :: rest).length) := by
  have isDigit := all head List.mem_cons_self
  have other (char : Char) (other : ¬ char.isDigit) : isChar char head = false :=
    isChar_of_isDigit other isDigit
  have wholeDigits : wholeDigits? (head :: rest) = some ((head :: rest).filterMap digit?, []) := by
    rw [← digits_of_isDigit all]
    unfold wholeDigits?
    dsimp only
    split
    · exact absurd ‹_› first
    · rfl
    · next none => simp [none] at isDigit
  have length : ((head :: rest).filterMap digit?).length = (head :: rest).length :=
    List.filterMap_length_eq_length.mpr all
  have number : number? (head :: rest) = some (.error (.tooManyDigits (head :: rest).length)) := by
    rw [number?]
    simp only [other '-' (by decide), Bool.false_eq_true, if_false, wholeDigits]
    simp only [fractionDigits?, exponentPart?, Option.getD_none, Option.isNone_none, Bool.and_self,
      if_true, length, if_pos beyond]
  have noSpace : isSpace head = false := by
    have same : isSpace head =
        (isChar ' ' head || isChar '\t' head || isChar '\n' head || isChar '\r' head) := by
      cases head <;> rfl
    simp [same, other]
  have noMark : head ≠ .scalar '\uFEFF' := by
    rintro rfl
    cases isDigit
  have found : whole (head :: rest) = .error (.tooManyDigits (head :: rest).length) := by
    rw [whole, skipSpaces, List.dropWhile_cons_of_neg (by simp [noSpace]), value]
    simp only [other '"' (by decide), other '{' (by decide),
      other '[' (by decide), Bool.false_eq_true, if_false, word?_of_isDigit isDigit, number]
  unfold read
  split
  · next mark => exact absurd (Option.some.inj mark) noMark
  · rw [readDecoded, found]
    rfl

end Alone
end ProtocolGen.Json
