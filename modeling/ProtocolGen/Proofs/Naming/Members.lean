import Mathlib.Data.List.Nodup
import Mathlib.Data.List.Perm.Subperm
import ProtocolGen.Proofs.Naming.Attributes

/-!
# Names of enumeration members

Whatever the labels of an enumeration are, its members have different names of capitals, digits and low
lines: the words of a label in capitals, with a number behind them where the name is in use. The search
for a number that is free ends, since each number makes another name and only so many are in use.
-/

set_option autoImplicit false

namespace ProtocolGen.Naming

/-! ## Spelling -/

def IsMemberChar (char : Char) : Prop := char.isUpper ∨ char.isDigit ∨ char = '_'

instance (char : Char) : Decidable (IsMemberChar char) :=
  inferInstanceAs (Decidable (char.isUpper ∨ char.isDigit ∨ char = '_'))

/-- Capitals, digits and low lines, of which the first is a capital. -/
structure IsMemberName (name : String) : Prop where
  begins : name.toList.head?.any Char.isUpper
  chars : ∀ char ∈ name.toList, IsMemberChar char

instance (name : String) : Decidable (IsMemberName name) :=
  decidable_of_iff (name.toList.head?.any Char.isUpper ∧ ∀ char ∈ name.toList, IsMemberChar char)
    ⟨fun ⟨begins, chars⟩ => ⟨begins, chars⟩, fun ⟨begins, chars⟩ => ⟨begins, chars⟩⟩

theorem IsMemberChar.isNameChar {char : Char} (member : IsMemberChar char) : isNameChar char := by
  rw [Naming.isNameChar, Bool.or_eq_true, beq_iff_eq, Text.isAlphanum_iff, Text.isAlpha_iff]
  rcases member with upper | digit | lowLine
  · exact .inl (.inl (.inl upper))
  · exact .inl (.inr digit)
  · exact .inr lowLine

theorem IsMemberName.append {name more : String} (member : IsMemberName name)
    (others : ∀ char ∈ more.toList, IsMemberChar char) : IsMemberName (name ++ more) where
  begins := by
    obtain ⟨begins, -⟩ := member
    rw [String.toList_append]
    cases chars : name.toList with
    | nil =>
      rw [chars] at begins
      cases begins
    | cons first rest => rwa [chars] at begins
  chars char inName := by
    rw [String.toList_append] at inName
    exact (List.mem_append.mp inName).elim (member.chars char) (others char)

theorem isDigit_of_mem_toString {char : Char} {number : Nat}
    (member : char ∈ (toString number).toList) : char.isDigit := by
  rw [Nat.toString_eq_repr, Nat.toList_repr] at member
  exact Nat.isDigit_of_mem_toDigits (by decide) (by decide) member

theorem isNameChar_toString (number : Nat) : ∀ char ∈ (toString number).toList, isNameChar char :=
  fun _ member => IsMemberChar.isNameChar (.inr (.inl (isDigit_of_mem_toString member)))

theorem isUpper_or_isDigit_upperAscii {char : Char} {text : List Char}
    (member : char ∈ snakeChars text) (other : char ≠ '_') :
    (Text.upperAscii char).isUpper ∨ (Text.upperAscii char).isDigit := by
  have name := isNameChar_of_mem_snakeChars member
  rw [isNameChar, Bool.or_eq_true, beq_iff_eq, Text.isAlphanum_iff, Text.isAlpha_iff] at name
  rcases name.resolve_right other with (upper | lower) | digit
  · exact absurd upper (not_isUpper_of_mem_snakeChars member)
  · exact .inl (isUpper_upperAscii lower)
  · have notLower : ¬ char.isLower := by
      rw [Text.isLower_iff]
      rw [Text.isDigit_iff] at digit
      omega
    rw [Text.upperAscii_of_not_isLower notLower]
    exact .inr digit

theorem isMemberChar_of_mem_capitals {char : Char} {text : List Char}
    (member : char ∈ (snakeChars text).map Text.upperAscii) : IsMemberChar char := by
  obtain ⟨small, inSnake, rfl⟩ := List.mem_map.mp member
  by_cases lowLine : small = '_'
  · subst lowLine
    exact .inr (.inr rfl)
  · exact or_assoc.mp (.inl (isUpper_or_isDigit_upperAscii inSnake lowLine))

theorem isMemberName_memberBase (label : String) : IsMemberName (memberBase label) := by
  unfold memberBase
  split
  · decide
  · next first rest capitals =>
    have word : ∀ char ∈ (String.ofList (first :: rest)).toList, IsMemberChar char := by
      rw [String.toList_ofList, ← capitals]
      exact fun _ => isMemberChar_of_mem_capitals
    split
    · exact IsMemberName.append (by decide) word
    · next notDigit =>
      obtain ⟨small, others, shape, rfl, -⟩ := List.map_eq_cons_iff.mp capitals
      have inSnake : small ∈ snakeChars label.toList := shape ▸ List.mem_cons_self
      have other : small ≠ '_' := (isSnake_snakeChars label.toList).begins small (by rw [shape]; rfl)
      refine ⟨?_, word⟩
      rw [String.toList_ofList]
      exact (isUpper_or_isDigit_upperAscii inSnake other).resolve_right notDigit

theorem IsMemberName.numbered {base : String} (member : IsMemberName base) (number : Nat) :
    IsMemberName (numbered base number) :=
  (member.append (by decide)).append fun _ inNumber => .inr (.inl (isDigit_of_mem_toString inNumber))

/-! ## The search for a number -/

/-- The search for a number from which a base name makes one that is not in use. It goes on as long as
there is no such number. -/
inductive Searched (used : List String) (base : String) : Nat → String → Prop where
  | free {number : Nat} (unused : numbered base number ∉ used) :
      Searched used base number (numbered base number)
  | taken {number : Nat} {name : String} (inUse : numbered base number ∈ used)
      (later : Searched used base (number + 1) name) : Searched used base number name

theorem numbered_injective (base : String) : Function.Injective (numbered base) := by
  intro number other same
  rw [numbered, numbered, String.append_right_inj, Nat.toString_eq_repr, Nat.toString_eq_repr,
    ← String.toList_inj, Nat.toList_repr, Nat.toList_repr] at same
  have read := congrArg (Nat.ofDigitChars 10 · 0) same
  simpa using read

/-- Of more numbers than there are names in use, one makes a name that is not. -/
theorem exists_numbered_not_mem (used : List String) (base : String) (number : Nat) :
    ∃ later ≤ used.length, numbered base (number + later) ∉ used := by
  by_contra none
  push Not at none
  have different : ((List.range (used.length + 1)).map fun later =>
      numbered base (number + later)).Nodup := by
    refine List.nodup_range.map fun later other same => ?_
    exact Nat.add_left_cancel (numbered_injective base same)
  have within : ((List.range (used.length + 1)).map fun later =>
      numbered base (number + later)) ⊆ used := by
    intro name member
    obtain ⟨later, range, rfl⟩ := List.mem_map.mp member
    exact none later (Nat.le_of_lt_succ (List.mem_range.mp range))
  have short := (different.subperm within).length_le
  rw [List.length_map, List.length_range] at short
  exact absurd short (Nat.not_succ_le_self _)

/-- The search that gives up after some tries does not, if there is a number among those it tries. -/
theorem searched_firstUnused {used : List String} {base : String} {tries number : Nat}
    (free : ∃ later ≤ tries, numbered base (number + later) ∉ used) :
    Searched used base number (firstUnused used base tries number) := by
  obtain ⟨later, range, unused⟩ := free
  induction tries generalizing number later with
  | zero =>
    obtain rfl := Nat.le_zero.mp range
    exact .free unused
  | succ tries ih =>
    rw [firstUnused]
    split
    · next inUse =>
      rw [List.contains_iff_mem] at inUse
      cases later with
      | zero => exact absurd inUse unused
      | succ later =>
        rw [Nat.add_succ, ← Nat.succ_add] at unused
        exact .taken inUse (ih later (Nat.le_of_succ_le_succ range) unused)
    · next free => exact .free (by simpa using free)

theorem Searched.not_mem {used : List String} {base name : String} {number : Nat}
    (searched : Searched used base number name) : name ∉ used := by
  induction searched with
  | free unused => exact unused
  | taken _ _ ih => exact ih

theorem Searched.isMemberName {used : List String} {base name : String} {number : Nat}
    (searched : Searched used base number name) (member : IsMemberName base) : IsMemberName name := by
  induction searched with
  | free => exact member.numbered _
  | taken _ _ ih => exact ih

/-! ## Members in turn -/

/-- The name of a label where nothing else has it: its words in capitals. -/
def plainMember (label : String) : String :=
  let capitals := (snake label).toUpper
  if capitals = "" then "VALUE" else if BeginsWithDigit capitals then "VALUE_" ++ capitals else capitals

theorem memberBase_eq (label : String) : memberBase label = plainMember label := by
  have capitals : (snakeChars label.toList).map Text.upperAscii = (snake label).toUpper.toList := by
    rw [String.toUpper, String.toList_map, snake, String.toList_ofList]
    exact List.map_congr_left fun char _ => (Text.toUpper_eq_upperAscii char).symm
  rw [memberBase, capitals, plainMember]
  cases chars : (snake label).toUpper.toList with
  | nil => rw [if_pos (String.toList_eq_nil_iff.mp chars)]
  | cons first rest =>
    have notEmpty : (snake label).toUpper ≠ "" := by
      intro empty
      rw [empty] at chars
      cases chars
    have same : String.ofList (first :: rest) = (snake label).toUpper := by
      rw [← chars, String.ofList_toList]
    have digit : BeginsWithDigit (snake label).toUpper ↔ first.isDigit := by
      rw [BeginsWithDigit, chars]
      rfl
    simp only [if_neg notEmpty, same, digit]

def firstChoice (label : String) : String :=
  if memberBase label = unsetMember then memberBase label ++ "_" else memberBase label

/-- The member name of a label among names in use: its first choice, or what is found by the search from
two on. -/
inductive Named (used : List String) (label : String) : String → Prop where
  | chosen (unused : firstChoice label ∉ used) : Named used label (firstChoice label)
  | searched {name : String} (inUse : firstChoice label ∈ used)
      (searched : Searched used (memberBase label) 2 name) : Named used label name

/-- The names of labels, each among those in use and those given before it. -/
inductive NamedInTurn : List String → List String → List String → Prop where
  | nil {used : List String} : NamedInTurn used [] []
  | cons {used labels names : List String} {label name : String} (named : Named used label name)
      (others : NamedInTurn (name :: used) labels names) :
      NamedInTurn used (label :: labels) (name :: names)

theorem named_memberAmong (used : List String) (label : String) :
    Named used label (memberAmong used label) := by
  have choice : (if memberBase label == unsetMember then memberBase label ++ "_"
      else memberBase label) = firstChoice label := by
    rw [firstChoice]
    simp only [beq_iff_eq]
  rw [memberAmong, choice]
  split
  · next inUse =>
    exact .searched (by simpa using inUse)
      (searched_firstUnused (exists_numbered_not_mem used (memberBase label) 2))
  · next unused => exact .chosen (by simpa using unused)

theorem namedInTurn_enumMemberNamesFrom (used labels : List String) :
    NamedInTurn used labels (enumMemberNamesFrom used labels) := by
  induction labels generalizing used with
  | nil => exact .nil
  | cons label labels ih => exact .cons (named_memberAmong used label) (ih _)

section Named

variable {used labels names : List String} {label name : String}

theorem Named.not_mem (named : Named used label name) : name ∉ used := by
  cases named with
  | chosen unused => exact unused
  | searched _ searched => exact searched.not_mem

theorem Named.isMemberName (named : Named used label name) : IsMemberName name := by
  have base := isMemberName_memberBase label
  cases named with
  | chosen =>
    unfold firstChoice
    split
    · exact base.append (by decide)
    · exact base
  | searched _ searched => exact searched.isMemberName base

theorem Named.eq_memberBase (named : Named used label name) (other : memberBase label ≠ unsetMember)
    (unused : memberBase label ∉ used) : name = memberBase label := by
  have choice : firstChoice label = memberBase label := if_neg other
  cases named with
  | chosen => exact choice
  | searched inUse => exact absurd (choice ▸ inUse) unused

namespace NamedInTurn

theorem length_eq (turn : NamedInTurn used labels names) : names.length = labels.length := by
  induction turn with
  | nil => rfl
  | cons _ _ ih => rw [List.length_cons, List.length_cons, ih]

/-- No name is given twice, and none that is in use. -/
theorem nodup (turn : NamedInTurn used labels names) : names.Nodup ∧ ∀ name ∈ names, name ∉ used := by
  induction turn with
  | nil => exact ⟨List.nodup_nil, List.forall_mem_nil _⟩
  | cons named _ ih =>
    obtain ⟨different, unused⟩ := ih
    refine ⟨List.nodup_cons.mpr ⟨fun again => ?_, different⟩, List.forall_mem_cons.mpr
      ⟨named.not_mem, fun name member inUse => unused name member (List.mem_cons_of_mem _ inUse)⟩⟩
    exact unused _ again List.mem_cons_self

theorem isMemberName (turn : NamedInTurn used labels names) : ∀ name ∈ names, IsMemberName name := by
  induction turn with
  | nil => exact List.forall_mem_nil _
  | cons named _ ih => exact List.forall_mem_cons.mpr ⟨named.isMemberName, ih⟩

end NamedInTurn

end Named

theorem isNameChar_enumMemberNames (labels : List String) :
    ∀ name ∈ enumMemberNames labels, ∀ char ∈ name.toList, isNameChar char := by
  intro name member char inName
  have turn := namedInTurn_enumMemberNamesFrom [unsetMember] labels
  exact ((turn.isMemberName name member).chars char inName).isNameChar

/-- More labels are named among the names that the first ones have got. -/
theorem enumMemberNamesFrom_append (used labels more : List String) :
    enumMemberNamesFrom used (labels ++ more) = enumMemberNamesFrom used labels ++
      enumMemberNamesFrom ((enumMemberNamesFrom used labels).reverse ++ used) more := by
  induction labels generalizing used with
  | nil => rfl
  | cons label labels ih =>
    rw [List.cons_append, enumMemberNamesFrom, enumMemberNamesFrom, ih, List.cons_append,
      List.reverse_cons, List.append_assoc, List.singleton_append]

theorem getElem?_enumMemberNames (before after : List String) {label : String}
    (other : memberBase label ≠ unsetMember) (unused : memberBase label ∉ enumMemberNames before) :
    (enumMemberNames (before ++ label :: after))[before.length]? = some (memberBase label) := by
  have length : (enumMemberNames before).length = before.length :=
    (namedInTurn_enumMemberNamesFrom [unsetMember] before).length_eq
  have free : memberBase label ∉ (enumMemberNames before).reverse ++ [unsetMember] := by
    simp [unused, other]
  rw [enumMemberNames, enumMemberNamesFrom_append, ← enumMemberNames, ← length,
    List.getElem?_append_right (Nat.le_refl _), Nat.sub_self, enumMemberNamesFrom]
  exact congrArg some ((named_memberAmong _ label).eq_memberBase other free)

/-- The search for a number ends for each label, whatever was named before. The members have different
names in capitals, none that of the unset one, and a label has its plain name unless that is the unset
member's or given before. Labels at the end change no name before them. -/
theorem member_names_are_distinct (labels : List String) :
    NamedInTurn ["NOT_SET"] labels (enumMemberNames labels) ∧
    (enumMemberNames labels).length = labels.length ∧
    ("NOT_SET" :: enumMemberNames labels).Nodup ∧
    (∀ name ∈ enumMemberNames labels, IsMemberName name) ∧
    (∀ before label after, labels = before ++ label :: after → plainMember label ≠ "NOT_SET" →
      plainMember label ∉ enumMemberNames before →
        (enumMemberNames labels)[before.length]? = some (plainMember label)) ∧
    ∀ more, enumMemberNames labels <+: enumMemberNames (labels ++ more) := by
  have turn := namedInTurn_enumMemberNamesFrom [unsetMember] labels
  obtain ⟨different, unused⟩ := turn.nodup
  refine ⟨turn, turn.length_eq, List.nodup_cons.mpr ⟨fun given => ?_, different⟩, turn.isMemberName,
    ?_, fun more => ?_⟩
  · exact unused _ given List.mem_cons_self
  · rintro before label after rfl other free
    rw [← memberBase_eq] at other free ⊢
    exact getElem?_enumMemberNames before after other free
  · rw [enumMemberNames, enumMemberNames, enumMemberNamesFrom_append]
    exact List.prefix_append _ _

/-- Two labels of one name, one that is named as the unset member and one that begins with a digit. -/
def transports : List String := ["XHR", "Xhr", "notSet", "2d"]

theorem transports_have_distinct_members :
    transports = ["XHR", "Xhr", "notSet"] ++ "2d" :: [] ∧ plainMember "2d" ≠ "NOT_SET" ∧
    plainMember "2d" ∉ enumMemberNames ["XHR", "Xhr", "notSet"] ∧
    enumMemberNames transports = ["XHR", "XHR_2", "NOT_SET_", "VALUE_2D"] ∧
    ("NOT_SET" :: enumMemberNames transports).Nodup ∧ IsMemberName "XHR_2" ∧
    (enumMemberNames transports)[3]? = some (plainMember "2d") ∧
    enumMemberNames transports <+: enumMemberNames (transports ++ ["xhr"]) := by
  obtain ⟨-, -, different, spelled, kept, extended⟩ := member_names_are_distinct transports
  have names : enumMemberNames transports = ["XHR", "XHR_2", "NOT_SET_", "VALUE_2D"] := by decide
  have other : plainMember "2d" ≠ "NOT_SET" := by
    rw [← memberBase_eq]
    decide
  have unused : plainMember "2d" ∉ enumMemberNames ["XHR", "Xhr", "notSet"] := by
    rw [← memberBase_eq]
    decide
  exact ⟨rfl, other, unused, names, different, spelled _ (by rw [names]; decide),
    kept ["XHR", "Xhr", "notSet"] "2d" [] rfl other unused, extended _⟩

end ProtocolGen.Naming
