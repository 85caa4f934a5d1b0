import Mathlib.Data.List.Nodup
import Mathlib.Data.List.Range
import ProtocolGen.Emission.Scope
import ProtocolGen.Proofs.Naming.Members
import ProtocolGen.Proofs.Types.DeclaredNames

/-!
# Conversions to the wire and back

The code that takes a value to the wire and the code that takes it back have one shape: a loop for
each array that the type is nested in, whether it stands in the type itself or behind an alias, and
inside of the loops the conversion of what is left. The outermost loop goes over the value and each
other one over the item of the loop around it. Where what is left stays as it is, the last loop is a
copy of the list that it would go over. But for those of the source, the code has characters of names
and of a few marks around them.
-/

set_option autoImplicit false

namespace ProtocolGen.Emission

open ProtocolGen.Types

/-! ## Nested types -/

/-- How many arrays a type is nested in, with aliases followed at every level. -/
def arrayDepth : TypeRef → Nat
  | .alias _ meaning => arrayDepth meaning
  | .array item => arrayDepth item + 1
  | _ => 0

/-- What is left of a type without the arrays that it is nested in. -/
def leaf : TypeRef → TypeRef
  | .alias _ meaning => leaf meaning
  | .array item => leaf item
  | other => other

theorem part?_leaf (ref : TypeRef) : (leaf ref).part? = none := by
  induction ref with
  | primitive | any | map | record | enumeration | raw => rfl
  | array item ih => exact ih
  | _ declared meaning ih => exact ih

/-- Whether values of a type are the same on the wire. -/
def isKept : TypeRef → Bool
  | .primitive _ | .any | .map => true
  | _ => false

/-- The code that takes a value to the wire, for a type that is nested in no array. -/
def toWire? : TypeRef → Option (String → String)
  | .record _ => some fun value => value ++ ".to_dict()"
  | .enumeration _ | .raw _ => some fun value => value ++ ".to_wire()"
  | _ => none

/-- The code that takes a value from the wire, for a type that is nested in no array. -/
def ofWire? (scope : Scope) : TypeRef → Option (String → String)
  | .record declared => some fun value => qualifiedName scope declared ++ ".from_dict(" ++ value ++ ")"
  | .enumeration declared | .raw declared =>
    some fun value => qualifiedName scope declared ++ ".from_wire(" ++ value ++ ")"
  | _ => none

theorem isKept_leaf_iff_toWire? (ref : TypeRef) : isKept (leaf ref) ↔ toWire? (leaf ref) = none := by
  have ends := part?_leaf ref
  cases shape : leaf ref with
  | primitive | any | map => exact iff_of_true rfl rfl
  | record | enumeration | raw => exact iff_of_false Bool.false_ne_true (Option.some_ne_none _)
  | _ =>
    rw [shape] at ends
    cases ends

theorem isKept_leaf_iff_ofWire? (scope : Scope) (ref : TypeRef) :
    isKept (leaf ref) ↔ ofWire? scope (leaf ref) = none := by
  have ends := part?_leaf ref
  cases shape : leaf ref with
  | primitive | any | map => exact iff_of_true rfl rfl
  | record | enumeration | raw => exact iff_of_false Bool.false_ne_true (Option.some_ne_none _)
  | _ =>
    rw [shape] at ends
    cases ends

/-- A conversion that leaves no text as it is. -/
def Changes (convert? : Option (String → String)) : Prop :=
  ∀ convert ∈ convert?, ∀ value, convert value ≠ value

/-- A text with others around it is as it was only if those are empty. -/
theorem framed_eq_iff {front text back : String} :
    front ++ text ++ back = text ↔ front = "" ∧ back = "" := by
  constructor
  · intro same
    have lengths := congrArg String.length same
    simp only [String.length_append] at lengths
    exact ⟨String.length_eq_zero_iff.mp (by omega), String.length_eq_zero_iff.mp (by omega)⟩
  · rintro ⟨rfl, rfl⟩
    rw [String.append_empty, String.empty_append]

theorem changes_toWire? (ref : TypeRef) : Changes (toWire? ref) := by
  intro convert converts value
  cases ref with
  | record | enumeration | raw =>
    cases converts
    exact mt String.append_eq_left_iff.mp (by decide)
  | _ => cases converts

theorem changes_ofWire? (scope : Scope) (ref : TypeRef) : Changes (ofWire? scope ref) := by
  intro convert converts value
  cases ref with
  | record | enumeration | raw =>
    cases converts
    exact fun same => absurd (framed_eq_iff.mp same).2 (by decide)
  | _ => cases converts

/-! ## Nested loops -/

/-- What the loop at a level goes over: the source, or the item of the loop around it. -/
def iterated (source : String) (depth : Nat) : Nat → String
  | 0 => source
  | level + 1 => loopName (depth + level)

/-- Loops one inside of the other, the outermost first, each with what it goes over. -/
def loops (source : String) (depth count : Nat) : List (String × String) :=
  (List.range count).map fun level => (loopName (depth + level), iterated source depth level)

/-- List comprehensions for some loops around a text, that of the first loop outermost. -/
def nested (loops : List (String × String)) (body : String) : String :=
  loops.foldr (fun loop inner => "[" ++ inner ++ " for " ++ loop.1 ++ " in " ++ loop.2 ++ "]") body

/-- Loops around the conversion of their last item. If there is nothing to convert, the last loop is a
copy of the list that it would go over. -/
def converted (convert? : Option (String → String)) (source : String) (depth count : Nat) : String :=
  match convert?, count with
  | some convert, count => nested (loops source depth count) (convert (iterated source depth count))
  | none, 0 => source
  | none, count + 1 =>
    nested (loops source depth count) ("list(" ++ iterated source depth count ++ ")")

theorem iterated_succ (source : String) (depth level : Nat) :
    iterated source depth (level + 1) = iterated (loopName depth) (depth + 1) level := by
  cases level with
  | zero => rfl
  | succ level => rw [iterated, iterated, Nat.add_assoc, Nat.add_comm 1 level]

theorem loops_succ (source : String) (depth count : Nat) : loops source depth (count + 1) =
    (loopName depth, source) :: loops (loopName depth) (depth + 1) count := by
  rw [loops, List.range_succ_eq_map, List.map_cons, List.map_map, loops]
  refine congrArg _ (List.map_congr_left fun level _ => ?_)
  rw [Function.comp_apply, Nat.succ_eq_add_one, iterated_succ, Nat.add_comm level, Nat.add_assoc]

theorem nested_loops_succ (source body : String) (depth count : Nat) :
    nested (loops source depth (count + 1)) body =
      "[" ++ nested (loops (loopName depth) (depth + 1) count) body ++ " for " ++ loopName depth ++
        " in " ++ source ++ "]" := by
  rw [loops_succ]
  rfl

theorem nested_loops_succ_ne (source body : String) (depth count : Nat) :
    nested (loops source depth (count + 1)) body ≠ source := by
  rw [nested_loops_succ]
  exact fun same => absurd (framed_eq_iff.mp same).2 (by decide)

theorem converted_eq_source_iff {convert? : Option (String → String)} (changes : Changes convert?)
    (source : String) (depth count : Nat) :
    converted convert? source depth count = source ↔ convert? = none ∧ count = 0 := by
  match convert?, count with
  | some convert, 0 =>
    have changed : converted (some convert) source depth 0 ≠ source := changes convert rfl source
    exact iff_of_false changed (by simp)
  | some convert, count + 1 => exact iff_of_false (nested_loops_succ_ne _ _ _ _) (by simp)
  | none, 0 => exact iff_of_true rfl ⟨rfl, rfl⟩
  | none, 1 =>
    have copied : "list(" ++ source ++ ")" ≠ source := fun same =>
      absurd (framed_eq_iff.mp same).2 (by decide)
    exact iff_of_false copied (by simp)
  | none, count + 2 => exact iff_of_false (nested_loops_succ_ne _ _ _ _) (by simp)

/-- One more loop around converted items is a comprehension, or a copy when the items are kept. -/
theorem comprehension_converted {convert? : Option (String → String)} (changes : Changes convert?)
    (source : String) (depth count : Nat) :
    comprehension (converted convert? (loopName depth) (depth + 1) count) (loopName depth) source =
      converted convert? source depth (count + 1) := by
  have kept := converted_eq_source_iff changes (loopName depth) (depth + 1) count
  unfold comprehension
  match convert?, count with
  | some convert, count =>
    rw [if_neg (by rw [kept]; simp), converted, converted, iterated_succ, nested_loops_succ]
  | none, 0 =>
    rw [if_pos (kept.mpr ⟨rfl, rfl⟩)]
    rfl
  | none, count + 1 =>
    rw [if_neg (by rw [kept]; simp), converted, converted, iterated_succ, nested_loops_succ]

theorem encode_eq_converted (ref : TypeRef) (source : String) (depth : Nat) :
    encode ref source depth = converted (toWire? (leaf ref)) source depth (arrayDepth ref) := by
  induction ref generalizing source depth with
  | array item ih =>
    rw [encode, ih]
    exact comprehension_converted (changes_toWire? _) source depth (arrayDepth item)
  | primitive | any | map | record | enumeration | raw => rfl
  | _ declared meaning ih => exact ih source depth

theorem decode_eq_converted (scope : Scope) (ref : TypeRef) (source : String) (depth : Nat) :
    decode scope ref source depth =
      converted (ofWire? scope (leaf ref)) source depth (arrayDepth ref) := by
  induction ref generalizing source depth with
  | array item ih =>
    rw [decode, ih]
    exact comprehension_converted (changes_ofWire? scope _) source depth (arrayDepth item)
  | primitive | any | map | record | enumeration | raw => rfl
  | _ declared meaning ih => exact ih source depth

theorem loopName_inj {depth other : Nat} : loopName depth = loopName other ↔ depth = other := by
  refine ⟨fun same => ?_, fun same => by rw [same]⟩
  have digits : Nat.toDigits 10 depth = Nat.toDigits 10 other :=
    String.ofList_injective ((String.append_right_inj _).mp same)
  have read := congrArg (fun digits => Nat.ofDigitChars 10 digits 0) digits
  simpa only [Nat.ofDigitChars_ten_toDigits] using read

theorem nodup_loopNames (source : String) (depth count : Nat) :
    ((loops source depth count).map Prod.fst).Nodup := by
  rw [loops, List.map_map]
  refine List.nodup_range.map fun level other same => ?_
  have depths : depth + level = depth + other := by
    rw [← loopName_inj]
    exact same
  exact Nat.add_left_cancel depths

/-! ## The shape of conversions -/

/-- Conversions of a type to the wire and back, which are the same but for what they do to the type that
is left. -/
structure OneShape (scope : Scope) (ref : TypeRef) (source : String) (depth : Nat) : Prop where
  leafEnds : (leaf ref).part? = none
  encoded : encode ref source depth = converted (toWire? (leaf ref)) source depth (arrayDepth ref)
  decoded : decode scope ref source depth =
    converted (ofWire? scope (leaf ref)) source depth (arrayDepth ref)
  toWireKeeps : isKept (leaf ref) ↔ toWire? (leaf ref) = none
  ofWireKeeps : isKept (leaf ref) ↔ ofWire? scope (leaf ref) = none
  boundOnce : ((loops source depth (arrayDepth ref)).map Prod.fst).Nodup
  identity : encode ref source depth = source ↔ decode scope ref source depth = source

/-- For every type, source and depth both conversions are the loops of the arrays that the type is nested
in, around the conversion of the type that is left. One of them keeps the source as it is just when the
other does. -/
theorem conversions_have_one_shape (scope : Scope) (ref : TypeRef) (source : String) (depth : Nat) :
    OneShape scope ref source depth where
  leafEnds := part?_leaf ref
  encoded := encode_eq_converted ref source depth
  decoded := decode_eq_converted scope ref source depth
  toWireKeeps := isKept_leaf_iff_toWire? ref
  ofWireKeeps := isKept_leaf_iff_ofWire? scope ref
  boundOnce := nodup_loopNames source depth (arrayDepth ref)
  identity := by
    rw [encode_eq_converted, decode_eq_converted, converted_eq_source_iff (changes_toWire? _),
      converted_eq_source_iff (changes_ofWire? scope _), ← isKept_leaf_iff_toWire?,
      ← isKept_leaf_iff_ofWire?]

example : decode none (.alias ⟨"Dom", "Dom.Quads", "Quads"⟩ (.array (.array
    (.enumeration ⟨"Dom", "Dom.Side", "Side"⟩)))) "data['q']" 0 =
      "[[dom.Side.from_wire(item1) for item1 in item0] for item0 in data['q']]" := by decide +kernel

/-! ## Characters of conversions -/

/-- The characters of names and of the marks between them. -/
def IsCodeChar (char : Char) : Prop :=
  Naming.isNameChar char ∨ char ∈ [' ', '(', ')', '[', ']', '.']

instance (char : Char) : Decidable (IsCodeChar char) :=
  inferInstanceAs (Decidable (Naming.isNameChar char ∨ char ∈ [' ', '(', ')', '[', ']', '.']))

/-- A text all of whose characters have a property. -/
def EachChar (holds : Char → Prop) (text : String) : Prop := ∀ char ∈ text.toList, holds char

instance {holds : Char → Prop} [DecidablePred holds] (text : String) : Decidable (EachChar holds text) :=
  inferInstanceAs (Decidable (∀ char ∈ text.toList, holds char))

section Characters

variable {holds : Char → Prop} {text more : String}

theorem eachChar_append_iff :
    EachChar holds (text ++ more) ↔ EachChar holds text ∧ EachChar holds more := by
  rw [EachChar, String.toList_append]
  exact List.forall_mem_append

theorem EachChar.imp {others : Char → Prop} (each : EachChar holds text)
    (all : ∀ char, holds char → others char) : EachChar others text :=
  fun char member => all char (each char member)

variable (all : ∀ char, IsCodeChar char → holds char) {source : String} (given : EachChar holds source)

include all

theorem eachChar_loopName (depth : Nat) : EachChar holds (loopName depth) := by
  have digits : EachChar IsCodeChar (toString depth) :=
    fun char member => .inl (Naming.isNameChar_toString depth char member)
  have item : EachChar IsCodeChar "item" := by decide
  exact eachChar_append_iff.mpr ⟨item.imp all, digits.imp all⟩

theorem eachChar_qualifiedName (scope : Scope) {declared : Declared}
    (named : EachChar holds declared.className) : EachChar holds (qualifiedName scope declared) := by
  have module : EachChar IsCodeChar (Naming.moduleName declared.domain) :=
    fun _ member => .inl (Naming.isNameChar_of_mem_moduleName member)
  have dot : EachChar IsCodeChar "." := by decide
  unfold qualifiedName
  split
  · exact named
  · exact eachChar_append_iff.mpr ⟨eachChar_append_iff.mpr ⟨module.imp all, dot.imp all⟩, named⟩

include given

theorem eachChar_comprehension {inner loop : String} (innerHolds : EachChar holds inner)
    (loopHolds : EachChar holds loop) : EachChar holds (comprehension inner loop source) := by
  have marks : ∀ mark ∈ ["list(", ")", "[", " for ", " in ", "]"], EachChar IsCodeChar mark := by decide
  have marksHold : ∀ mark ∈ ["list(", ")", "[", " for ", " in ", "]"], EachChar holds mark :=
    fun mark member => (marks mark member).imp all
  simp only [List.forall_mem_cons] at marksHold
  unfold comprehension
  split <;> simp only [eachChar_append_iff, marksHold, innerHolds, loopHolds, given, and_self]

theorem eachChar_encode (ref : TypeRef) (depth : Nat) : EachChar holds (encode ref source depth) := by
  have methods : EachChar IsCodeChar ".to_dict()" ∧ EachChar IsCodeChar ".to_wire()" := by decide
  induction ref generalizing source depth with
  | primitive | any | map => exact given
  | array item ih =>
    have loop := eachChar_loopName all depth
    exact eachChar_comprehension all given (ih loop _) loop
  | record => exact eachChar_append_iff.mpr ⟨given, methods.1.imp all⟩
  | enumeration | raw => exact eachChar_append_iff.mpr ⟨given, methods.2.imp all⟩
  | _ declared meaning ih => exact ih given depth

theorem eachChar_decode (scope : Scope) {ref : TypeRef}
    (named : ∀ declared ∈ ref.names, EachChar holds declared.className) (depth : Nat) :
    EachChar holds (decode scope ref source depth) := by
  have call {declared : Declared} (named : EachChar holds declared.className) {method source : String}
      (code : EachChar IsCodeChar method) (given : EachChar holds source) :
      EachChar holds (qualifiedName scope declared ++ method ++ source ++ ")") := by
    have closing : EachChar IsCodeChar ")" := by decide
    simp only [eachChar_append_iff, eachChar_qualifiedName all scope named, code.imp all, given,
      closing.imp all, and_self]
  induction ref generalizing source depth with
  | primitive | any | map => exact given
  | array item ih =>
    have loop := eachChar_loopName all depth
    exact eachChar_comprehension all given (ih loop named _) loop
  | record declared | enumeration declared | raw declared =>
    exact call (named declared List.mem_cons_self) (by decide) given
  | _ declared meaning ih => exact ih given (List.forall_mem_cons.mp named).2 depth

end Characters

end ProtocolGen.Emission
