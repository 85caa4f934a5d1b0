import ProtocolGen.Proofs.Emission.Builders
import ProtocolGen.Proofs.Emission.Conversions
import ProtocolGen.Proofs.Naming.Members
import ProtocolGen.Proofs.Source.Literals
import ProtocolGen.Proofs.Types.Indirection

/-!
# Views of a field

The annotation of a field, its default, the test for its presence and the code that reads it from the
wire follow from two marks and from a type, each by rules of its own. For the fields of an accepted
index they agree: a field that may be missing has a default that stands for a missing value, the test
for presence tells that value from others, and the key of the field is read in a way that allows for
its absence.
-/

set_option autoImplicit false

namespace ProtocolGen.Emission

open ProtocolGen.Types ProtocolGen.Source

/-! ## Uses of keys -/

/-- What some code does with a key of the data on the wire: it names the item, which must be there to be
read, or gets what there is. -/
inductive KeyUse where
  | item (key : String)
  | get (key : String)
  deriving DecidableEq, Repr

/-- The use of a literal as a key, which the code before it shows. -/
def keyUse? (before key : List Char) : Option KeyUse :=
  if "data[".toList.isSuffixOf before then some (.item (String.ofList key))
  else if "data.get(".toList.isSuffixOf before then some (.get (String.ofList key))
  else none

/-- The keys that some code uses, in order. -/
def keyUses (code : String) : List KeyUse :=
  (literalsIn code).filterMap fun (before, key) => keyUse? before key

theorem keyUse?_item (front : String) (key : List Char) :
    keyUse? (front ++ "data[").toList key = some (.item (String.ofList key)) := by
  rw [keyUse?, String.toList_append, if_pos]
  simp

theorem keyUse?_get (front : String) (key : List Char) :
    keyUse? (front ++ "data.get(").toList key = some (.get (String.ofList key)) := by
  rw [keyUse?, String.toList_append, if_neg, if_pos]
  · simp
  · simp [List.isSuffixOf]

theorem keyUses_unquoted {code : String} (unquoted : Unquoted code) : keyUses code = [] := by
  rw [keyUses, literalsIn_unquoted unquoted, List.filterMap_nil]

theorem keyUses_literal {code : String} (unquoted : Unquoted code) (text more : String) :
    keyUses (code ++ Text.literalOf text ++ more) =
      (keyUse? code.toList (Text.literalOf text).toList).toList ++ keyUses more := by
  rw [keyUses, literalsIn_literal unquoted, List.filterMap_cons, ← keyUses]
  dsimp only
  cases keyUse? code.toList (Text.literalOf text).toList <;> rfl

section Keys

variable {front : String} (before : Unquoted front) (field : Field) (back : String)

include before

theorem keyUses_wireItem :
    keyUses (front ++ field.wireItem ++ back) = .item field.key :: keyUses ("]" ++ back) := by
  have text : front ++ field.wireItem ++ back =
      front ++ "data[" ++ Text.literalOf field.property.name ++ ("]" ++ back) := by
    simp only [Field.wireItem, Field.key, String.append_assoc]
  rw [text, keyUses_literal (before.append (by decide)), keyUse?_item, String.ofList_toList]
  rfl

theorem keyUses_wireGet :
    keyUses (front ++ field.wireGet ++ back) = .get field.key :: keyUses (")" ++ back) := by
  have text : front ++ field.wireGet ++ back =
      front ++ "data.get(" ++ Text.literalOf field.property.name ++ (")" ++ back) := by
    simp only [Field.wireGet, Field.key, String.append_assoc]
  rw [text, keyUses_literal (before.append (by decide)), keyUse?_get, String.ofList_toList]
  rfl

end Keys

/-! ## Frames of conversions -/

theorem unquoted_of_names {name : String} (names : ∀ char ∈ name.toList, Naming.isNameChar char) :
    Unquoted name := by
  have quotes : ∀ quote ∈ ['\'', '"'], ¬ Naming.isNameChar quote := by decide
  exact fun char member quote => quotes char quote (names char member)

theorem unquoted_loopName (depth : Nat) : Unquoted (loopName depth) :=
  Unquoted.append (by decide) (unquoted_of_names (Naming.isNameChar_toString depth))

theorem unquoted_qualifiedName {scope : Scope} {declared : Declared}
    (names : ∀ char ∈ declared.className.toList, Naming.isNameChar char) :
    Unquoted (qualifiedName scope declared) := by
  have module : Unquoted (Naming.moduleName declared.domain) :=
    unquoted_of_names fun _ => Naming.isNameChar_of_mem_moduleName
  unfold qualifiedName
  split
  · exact unquoted_of_names names
  · exact (module.append (by decide)).append (unquoted_of_names names)

/-- Code without literals around what it is given. -/
def IsFrame (code : String → String) : Prop :=
  ∃ front back, Unquoted front ∧ Unquoted back ∧ ∀ source, code source = front ++ source ++ back

theorem IsFrame.same : IsFrame fun source => source := by
  refine ⟨"", "", by decide, by decide, fun source => ?_⟩
  rw [String.empty_append, String.append_empty]

theorem IsFrame.comprehension {inner loop : String} (innerUnquoted : Unquoted inner)
    (loopUnquoted : Unquoted loop) : IsFrame (comprehension inner loop) := by
  unfold Emission.comprehension
  split
  · exact ⟨"list(", ")", by decide, by decide, fun _ => rfl⟩
  · refine ⟨"[" ++ inner ++ " for " ++ loop ++ " in ", "]", ?_, by decide, fun _ => rfl⟩
    refine Unquoted.append (Unquoted.append ?_ loopUnquoted) (by decide)
    exact Unquoted.append (Unquoted.append (by decide) innerUnquoted) (by decide)

theorem IsFrame.unquoted {code : String → String} (frame : IsFrame code) {source : String}
    (unquoted : Unquoted source) : Unquoted (code source) := by
  obtain ⟨front, back, before, behind, framed⟩ := frame
  rw [framed]
  exact (before.append unquoted).append behind

theorem isFrame_encode (ref : TypeRef) (depth : Nat) :
    IsFrame fun source => encode ref source depth := by
  induction ref generalizing depth with
  | primitive | any | map => exact .same
  | record =>
    exact ⟨"", ".to_dict()", by decide, by decide, fun _ => by rw [String.empty_append]; rfl⟩
  | enumeration | raw =>
    exact ⟨"", ".to_wire()", by decide, by decide, fun _ => by rw [String.empty_append]; rfl⟩
  | array item ih =>
    exact .comprehension ((ih (depth + 1)).unquoted (unquoted_loopName depth))
      (unquoted_loopName depth)
  | _ declared meaning ih => exact ih depth

theorem isFrame_decode (scope : Scope) {ref : TypeRef} (named : ∀ declared ∈ ref.names,
    ∀ char ∈ declared.className.toList, Naming.isNameChar char) (depth : Nat) :
    IsFrame fun source => decode scope ref source depth := by
  induction ref generalizing depth with
  | primitive | any | map => exact .same
  | record declared =>
    have name : Unquoted (qualifiedName scope declared) :=
      unquoted_qualifiedName (named declared List.mem_cons_self)
    exact ⟨qualifiedName scope declared ++ ".from_dict(", ")", name.append (by decide), by decide,
      fun _ => rfl⟩
  | enumeration declared | raw declared =>
    have name : Unquoted (qualifiedName scope declared) :=
      unquoted_qualifiedName (named declared List.mem_cons_self)
    exact ⟨qualifiedName scope declared ++ ".from_wire(", ")", name.append (by decide), by decide,
      fun _ => rfl⟩
  | array item ih =>
    exact .comprehension ((ih named (depth + 1)).unquoted (unquoted_loopName depth))
      (unquoted_loopName depth)
  | _ declared meaning ih =>
    exact ih (fun other member => named other (List.mem_cons_of_mem _ member)) depth

/-! ## Fields of an accepted index -/

/-- How a field stands for a value that is missing: by `None` behind an indirection, not at all, or by
the empty value of its type. -/
inductive Absence (field : Field) : Prop where
  | indirect (indirect : field.indirect = true)
  | never (direct : field.indirect = false) (required : field.omitEmpty = false)
  | any (direct : field.indirect = false) (omits : field.omitEmpty = true)
      (target : field.ref.target = .any)
  | table (direct : field.indirect = false) (omits : field.omitEmpty = true)
      (target : field.ref.target = .map)
  | list (direct : field.indirect = false) (omits : field.omitEmpty = true) (item : TypeRef)
      (target : field.ref.target = .array item)
  | enumeration (direct : field.indirect = false) (omits : field.omitEmpty = true)
      (declared : Declared) (target : field.ref.target = .enumeration declared)
  | raw (direct : field.indirect = false) (omits : field.omitEmpty = true) (declared : Declared)
      (target : field.ref.target = .raw declared)

/-- A field as it is made from a property of an accepted index. -/
structure IsSound (field : Field) : Prop where
  omits : field.omitEmpty = field.property.optional
  absence : Absence field
  named : ∀ declared ∈ field.ref.names, ∀ char ∈ declared.className.toList, Naming.isNameChar char
  memberNamed : ∀ char ∈ field.memberName.toList, Naming.isNameChar char

/-- An optional field of a type without an empty state is indirect, so all others have one. -/
theorem absence_of_isBare {field : Field}
    (bare : field.omitEmpty = true → field.ref.target.isBare → field.indirect = true) :
    Absence field := by
  cases direct : field.indirect with
  | true => exact .indirect direct
  | false =>
    cases omits : field.omitEmpty with
    | false => exact .never direct omits
    | true =>
      have notBare : ¬ field.ref.target.isBare := fun isBare => by simp [bare omits isBare] at direct
      cases target : field.ref.target with
      | primitive => exact absurd (by rw [target]; rfl) notBare
      | record => exact absurd (by rw [target]; rfl) notBare
      | any => exact .any direct omits target
      | map => exact .table direct omits target
      | array item => exact .list direct omits item target
      | enumeration declared => exact .enumeration direct omits declared target
      | raw declared => exact .raw direct omits declared target
      | _ declared meaning => exact absurd target (field.ref.target_ne_alias declared meaning)

theorem isSound_of_fieldsOf {domains : List Domain} {index : TypeIndex} {scope : Scope}
    {domain owner : String} {properties : List Property} {fields : List Field}
    (accepted : classify domains = .ok index)
    (made : fieldsOf index scope domain owner properties = .ok fields) :
    ∀ field ∈ fields, IsSound field := by
  intro field member
  obtain ⟨property, ref, resolved, rfl⟩ := exists_fieldOf_of_mem made member
  have needs := needsIndirection_of_resolveWithin (Classified.of_classify accepted) resolved
  refine ⟨rfl, absence_of_isBare fun optional bare => ?_, isNameChar_of_resolve resolved,
    isNameChar_attributeName property.name⟩
  simp only [fieldOf] at optional bare ⊢
  rw [optional, needs, bare]
  rfl

section Views

variable {field : Field} (scope : Scope)

theorem factory_ne_none (maker : String) : Field.factory maker ≠ "None" := by
  unfold Field.factory
  simp [← String.toList_inj]

theorem none_test_ne (place : String) : place ++ " is not None" ≠ place :=
  mt String.append_eq_left_iff.mp (by decide)

/-- A default is missing when a value is required and never `None`. -/
theorem default?_eq_none_iff :
    field.default? scope = none ↔ field.omitEmpty = false ∧ field.indirect = false := by
  unfold Field.default?
  split
  · next indirect => simp [indirect]
  · next direct =>
    split
    · next required => simpa [direct] using required
    · next omits =>
      have given : field.omitEmpty ≠ false := by simpa using omits
      refine iff_of_false ?_ fun both => given both.1
      split <;> exact Option.some_ne_none _

theorem default?_eq_some_none_iff (absence : Absence field) :
    field.default? scope = some "None" ↔
      field.indirect = true ∨ field.omitEmpty = true ∧ field.ref.target = .any := by
  cases absence with
  | indirect indirect => simp [Field.default?, indirect]
  | never direct required => simp [Field.default?, direct, required]
  | any direct omits target | table direct omits target | list direct omits _ target
  | enumeration direct omits _ target | raw direct omits _ target =>
    simp [Field.default?, direct, omits, target, factory_ne_none]

/-- Whether the test for presence is one for `None`. -/
def Field.TestsNone (field : Field) : Prop := field.indirect = true ∨ field.ref.target = .any

theorem presence_eq_iff : field.presence = field.place ++ " is not None" ↔ field.TestsNone := by
  unfold Field.presence Field.TestsNone
  split
  · next tested =>
    exact iff_of_true rfl (by simpa only [Bool.or_eq_true, beq_iff_eq] using tested)
  · next untested =>
    exact iff_of_false (none_test_ne field.place).symm
      (by simpa only [Bool.or_eq_true, beq_iff_eq] using untested)

theorem presence_eq_place_iff : field.presence = field.place ↔ ¬ field.TestsNone := by
  unfold Field.presence Field.TestsNone
  split
  · next tested =>
    exact iff_of_false (none_test_ne field.place)
      (not_not_intro (by simpa only [Bool.or_eq_true, beq_iff_eq] using tested))
  · next untested =>
    exact iff_of_true rfl (by simpa only [Bool.or_eq_true, beq_iff_eq] using untested)

/-- The annotation of an indirect field says that it may be `None`. -/
theorem annotation_of_indirect (indirect : field.indirect = true) :
    " | None".toList <:+ (field.annotation scope).toList := by
  simp [Field.annotation, indirect]

/-! ### Reading from the wire -/

/-- Code that takes whatever there is under the key of a field, or an item of it behind a test that there
is one. -/
def ReadsSafely (field : Field) (code : String) : Prop :=
  keyUses code = [.get field.key] ∨
    ∃ value, keyUses value = [.item field.key] ∧
      code = value ++ " if " ++ field.wireGet ++ " is not None else None"

theorem keyUses_of_frame {code : String → String} (frame : IsFrame code) (field : Field) :
    keyUses (code field.wireItem) = [.item field.key] := by
  obtain ⟨front, back, before, behind, framed⟩ := frame
  rw [framed, keyUses_wireItem before, keyUses_unquoted (Unquoted.append (by decide) behind)]

theorem keyUses_of_frame_get {code : String → String} (frame : IsFrame code) (field : Field)
    {more : String} (unquoted : Unquoted more) :
    keyUses (code (field.wireGet ++ more)) = [.get field.key] := by
  obtain ⟨front, back, before, behind, framed⟩ := frame
  rw [framed, ← String.append_assoc, String.append_assoc, keyUses_wireGet before,
    keyUses_unquoted (Unquoted.append (by decide) (unquoted.append behind))]

theorem keyUses_get (field : Field) : keyUses field.wireGet = [.get field.key] := by
  have uses := keyUses_of_frame_get .same field (show Unquoted "" by decide)
  rwa [String.append_empty] at uses

section Wire

variable (frame : IsFrame fun source => decode scope field.ref source 0)

include frame

/-- The code for a field that may be missing gets what there is, or tests for it before it decodes the
item. -/
theorem keyUses_fromWire (absence : Absence field) (present : field.default? scope ≠ none) :
    keyUses (field.fromWire scope) = [.get field.key] ∨
      field.fromWire scope = decode scope field.ref field.wireItem 0 ++ " if " ++ field.wireGet ++
        " is not None else None" := by
  have gets := keyUses_get field
  have decodes {more : String} (unquoted : Unquoted more) :
      keyUses (decode scope field.ref (field.wireGet ++ more) 0) = [.get field.key] :=
    keyUses_of_frame_get frame field unquoted
  have decodesGet := decodes (show Unquoted "" by decide)
  rw [String.append_empty] at decodesGet
  cases absence with
  | indirect indirect =>
    unfold Field.fromWire
    rw [if_pos indirect]
    split
    · exact .inl gets
    · exact .inr rfl
  | never direct required =>
    exact absurd ((default?_eq_none_iff scope).mpr ⟨required, direct⟩) present
  | any direct omits target =>
    refine .inl ?_
    simpa [Field.fromWire, direct, omits, target] using gets
  | table direct omits target =>
    have dict : IsFrame fun source => "dict(" ++ source ++ ")" :=
      ⟨"dict(", ")", by decide, by decide, fun _ => rfl⟩
    have uses := keyUses_of_frame_get dict field (show Unquoted " or \x7b\x7d" by decide)
    refine .inl ?_
    simpa [Field.fromWire, direct, omits, target, String.append_assoc] using uses
  | list direct omits item target =>
    refine .inl ?_
    simpa [Field.fromWire, direct, omits, target] using decodes (show Unquoted " or []" by decide)
  | enumeration direct omits declared target | raw direct omits declared target =>
    refine .inl ?_
    simpa [Field.fromWire, direct, omits, target] using decodesGet

/-- Only the code for a field that must be there decodes the item without more ado. -/
theorem fromWire_eq_decode_iff (absence : Absence field) :
    field.fromWire scope = decode scope field.ref field.wireItem 0 ↔ field.default? scope = none := by
  constructor
  · intro same
    by_contra present
    rcases keyUses_fromWire scope frame absence present with uses | guarded
    · rw [same, keyUses_of_frame frame] at uses
      simp at uses
    · rw [same, String.append_assoc, String.append_assoc, eq_comm, String.append_eq_left_iff] at guarded
      simp [← String.toList_inj] at guarded
  · intro missing
    obtain ⟨required, direct⟩ := (default?_eq_none_iff scope).mp missing
    simp [Field.fromWire, required, direct]

end Wire

end Views

/-! ## Writing to the wire -/

/-- The condition of a line that tests one. -/
def conditionOf? (line : String) : Option String :=
  match line.toList with
  | 'i' :: 'f' :: ' ' :: rest =>
    if rest.getLast? = some ':' then some (String.ofList rest.dropLast) else none
  | _ => none

/-- The keys that the lines of a method use, each with the condition that its line stands under. The
condition that the next lines stand under is given. -/
def usesUnder (condition : Option String) : List Edit → List (Option String × KeyUse)
  | .line text 3 :: rest =>
    (keyUses text).map (fun used => (condition, used)) ++ usesUnder condition rest
  | .line text _ :: rest =>
    (keyUses text).map (fun used => (none, used)) ++ usesUnder (conditionOf? text) rest
  | _ :: rest => usesUnder none rest
  | [] => []

/-- How the method that writes a record puts the key of a field: under the test for its presence when
the property is optional, and always when it is required. -/
def Field.put (field : Field) : Option String × KeyUse :=
  (if field.property.optional then some field.presence else none, .item field.key)

theorem conditionOf?_if (condition : String) :
    conditionOf? ("if " ++ condition ++ ":") = some condition := by
  have chars : ("if " ++ condition ++ ":").toList = 'i' :: 'f' :: ' ' :: (condition.toList ++ [':']) := by
    simp
  rw [conditionOf?, chars]
  simp

theorem unquoted_place {field : Field} (sound : IsSound field) : Unquoted field.place :=
  Unquoted.append (by decide) (unquoted_of_names sound.memberNamed)

theorem keyUses_assignment {field : Field} (sound : IsSound field) {more : String}
    (unquoted : Unquoted more) :
    keyUses ("data[" ++ field.key ++ "] = " ++ field.encoded ++ more) = [.item field.key] := by
  have encoded : Unquoted field.encoded := (isFrame_encode field.ref 0).unquoted (unquoted_place sound)
  have text : "data[" ++ field.key ++ "] = " ++ field.encoded ++ more =
      "" ++ field.wireItem ++ (" = " ++ field.encoded ++ more) := by
    simp [← String.toList_inj, Field.wireItem]
  have behind : Unquoted ("]" ++ (" = " ++ field.encoded ++ more)) :=
    Unquoted.append (by decide) (Unquoted.append (Unquoted.append (by decide) encoded) unquoted)
  rw [text, keyUses_wireItem (by decide), keyUses_unquoted behind]

theorem usesUnder_statement (condition : Option String) (text : String) (rest : List Edit) :
    usesUnder condition (.line text 2 :: rest) =
      (keyUses text).map (fun used => (none, used)) ++ usesUnder (conditionOf? text) rest := rfl

theorem usesUnder_toWireEdits {field : Field} (sound : IsSound field) (condition : Option String)
    (rest : List Edit) : ∃ next,
      usesUnder condition (toWireEdits field ++ rest) = field.put :: usesUnder next rest := by
  have omits := sound.omits
  have plain := keyUses_assignment sound (show Unquoted "" by decide)
  rw [String.append_empty] at plain
  unfold toWireEdits
  dsimp only
  split
  · next optional =>
    have isOptional : field.property.optional := omits ▸ optional
    have presence : Unquoted field.presence := by
      unfold Field.presence
      split
      · exact (unquoted_place sound).append (by decide)
      · exact unquoted_place sound
    have test : keyUses ("if " ++ field.presence ++ ":") = [] :=
      keyUses_unquoted (Unquoted.append (Unquoted.append (by decide) presence) (by decide))
    refine ⟨some field.presence, ?_⟩
    rw [List.cons_append, usesUnder_statement, test, conditionOf?_if, List.cons_append,
      List.nil_append, usesUnder, plain, Field.put, if_pos isOptional]
    rfl
  · next required =>
    have isRequired : ¬ field.property.optional := omits ▸ required
    split
    · have uses : keyUses ("data[" ++ field.key ++ "] = " ++ field.encoded ++ (" if " ++ field.place ++
          " is not None else None")) = [.item field.key] :=
        keyUses_assignment sound
          (Unquoted.append (Unquoted.append (by decide) (unquoted_place sound)) (by decide))
      rw [← String.append_assoc, ← String.append_assoc] at uses
      refine ⟨conditionOf? ("data[" ++ field.key ++ "] = " ++ field.encoded ++ " if " ++ field.place ++
        " is not None else None"), ?_⟩
      rw [List.cons_append, usesUnder_statement, uses, Field.put, if_neg isRequired]
      rfl
    · refine ⟨conditionOf? ("data[" ++ field.key ++ "] = " ++ field.encoded), ?_⟩
      rw [List.cons_append, usesUnder_statement, plain, Field.put, if_neg isRequired]
      rfl

/-- The method that writes a record puts the key of each field once, in order, and under the test for
its presence exactly when the property is optional. -/
theorem usesUnder_toDictEdits {fields : List Field} (sound : ∀ field ∈ fields, IsSound field) :
    usesUnder none (toDictEdits fields) = fields.map Field.put := by
  have body (condition : Option String) :
      usesUnder condition (fields.flatMap toWireEdits ++ [.line "return data" 2]) =
        fields.map Field.put := by
    induction fields generalizing condition with
    | nil => rfl
    | cons field fields ih =>
      obtain ⟨first, others⟩ := List.forall_mem_cons.mp sound
      obtain ⟨next, put⟩ := usesUnder_toWireEdits first condition
        (fields.flatMap toWireEdits ++ [.line "return data" 2])
      rw [List.flatMap_cons, List.append_assoc, put, ih others, List.map_cons]
  rw [toDictEdits, List.append_assoc]
  exact body none

/-! ## Agreement -/

/-- All that is written for a field agrees on whether it may be missing, and on what it is then. -/
structure ViewsAgree (scope : Scope) (field : Field) : Prop where
  defaultMissing : field.default? scope = none ↔ ¬ field.property.optional ∧ ¬ field.indirect
  noneAnnotated : field.default? scope = some "None" →
    " | None".toList <:+ (field.annotation scope).toList ∨ field.ref.target = .any
  noneTested : ∀ text, field.default? scope = some text →
    (text = "None" ↔ field.presence = field.place ++ " is not None")
  truthTested : ∀ text, field.default? scope = some text →
    (text ≠ "None" ↔ field.presence = field.place)
  decodesItem : field.fromWire scope = decode scope field.ref field.wireItem 0 ↔
    field.default? scope = none
  readsSafely : field.default? scope ≠ none → ReadsSafely field (field.fromWire scope)

theorem IsSound.viewsAgree {field : Field} (sound : IsSound field) (scope : Scope) :
    ViewsAgree scope field := by
  have absence := sound.absence
  have frame := isFrame_decode scope sound.named 0
  have missing := @default?_eq_none_iff field scope
  have isNone {text : String} (given : field.default? scope = some text) :
      text = "None" ↔ field.TestsNone := by
    have optional : field.indirect = false → field.omitEmpty = true := by
      intro direct
      by_contra required
      rw [missing.mpr ⟨by simpa using required, direct⟩] at given
      cases given
    have given : text = "None" ↔ field.default? scope = some "None" := by
      rw [given, Option.some_inj]
    rw [given, default?_eq_some_none_iff scope absence, Field.TestsNone]
    constructor
    · exact Or.imp_right And.right
    · rintro (indirect | any)
      · exact .inl indirect
      · cases direct : field.indirect with
        | true => exact .inl rfl
        | false => exact .inr ⟨optional direct, any⟩
  constructor
  · rw [missing, sound.omits]
    simp
  · intro none
    rcases (default?_eq_some_none_iff scope absence).mp none with indirect | ⟨_, any⟩
    · exact .inl (annotation_of_indirect scope indirect)
    · exact .inr any
  · exact fun text given => (isNone given).trans presence_eq_iff.symm
  · exact fun text given => (not_congr (isNone given)).trans presence_eq_place_iff.symm
  · exact fromWire_eq_decode_iff scope frame absence
  · intro present
    rcases keyUses_fromWire scope frame absence present with gets | guarded
    · exact .inl gets
    · exact .inr ⟨_, keyUses_of_frame frame field, guarded⟩

def meshProperties : List Property :=
  [⟨.plain ⟨none, none, some "Mesh", none⟩, "next", false, false, false⟩,
    ⟨.withItems ⟨none, some "array", none, none⟩ (.plain ⟨none, some "string", none, none⟩), "knots",
      true, false, false⟩,
    ⟨.plain ⟨none, some "any", none, none⟩, "note", true, false, false⟩,
    ⟨.plain ⟨none, none, some "Gauge", none⟩, "gauge", true, false, false⟩]

def mesh : TypeDeclaration :=
  ⟨.plain ⟨none, some "object", none, none⟩, "Mesh", some meshProperties, false, false⟩

def meshGauge : TypeDeclaration :=
  ⟨.plain ⟨none, some "integer", none, none⟩, "Gauge", none, false, false⟩

/-- A mesh holds the next one, and optional values that are empty, unknown or `None` when missing. -/
def loom : Domain := ⟨"Loom", none, false, false, [mesh, meshGauge], [], []⟩

def loomIndex : TypeIndex :=
  ⟨[⟨"Loom", "Mesh", .record, false, mesh⟩, ⟨"Loom", "Gauge", .alias, false, meshGauge⟩]⟩

end ProtocolGen.Emission
