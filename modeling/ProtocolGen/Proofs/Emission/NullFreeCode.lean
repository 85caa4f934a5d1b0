import ProtocolGen.Proofs.Emission.Conversions
import ProtocolGen.Proofs.Emission.Fields
import ProtocolGen.Proofs.Source.KeptCharacters
import ProtocolGen.Proofs.Source.LiteralValues

/-!
# Code without null characters

The names in code are made of letters, digits and low lines, whatever the protocol's names are, and a
literal shows a null character by its number. So the code of a resolved type or of a field has no null
characters.
-/

set_option autoImplicit false

namespace ProtocolGen

open ProtocolGen.Source

/-! ## Names -/

theorem nullFree_of_isNameChar {name : String}
    (names : ∀ char ∈ name.toList, Naming.isNameChar char) : NullFree name :=
  fun null => absurd (names nullCharacter null) (by decide)

namespace Naming

section Names

variable (domain name : String)

@[simp] theorem nullFree_safeIdentifier : NullFree (safeIdentifier name) :=
  nullFree_of_isNameChar fun _ => isNameChar_of_mem_safeIdentifier

@[simp] theorem nullFree_attributeName : NullFree (attributeName name) := nullFree_safeIdentifier _

@[simp] theorem nullFree_className : NullFree (className name) := nullFree_safeIdentifier _

@[simp] theorem nullFree_memberName : NullFree (memberName domain name) := nullFree_safeIdentifier _

@[simp] theorem nullFree_moduleName : NullFree (moduleName domain) :=
  nullFree_of_isNameChar fun _ => isNameChar_of_mem_moduleName

@[simp] theorem nullFree_domainClass : NullFree (domainClass domain) :=
  nullFree_of_isNameChar fun _ => isNameChar_of_mem_domainClass

@[simp] theorem nullFree_argsName : NullFree (argsName domain name) :=
  nullFree_of_isNameChar (isNameChar_argsName domain name)

@[simp] theorem nullFree_replyName : NullFree (replyName domain name) :=
  nullFree_of_isNameChar (isNameChar_replyName domain name)

@[simp] theorem nullFree_eventClientName : NullFree (eventClientName domain name) :=
  nullFree_of_isNameChar (isNameChar_eventClientName domain name)

theorem nullFree_snake : NullFree (snake name) := by
  refine nullFree_of_isNameChar fun char member => ?_
  rw [snake, String.toList_ofList] at member
  exact isNameChar_of_mem_snakeChars member

@[simp] theorem nullFree_argsConstructorName : NullFree (argsConstructorName domain name) := by
  simp (disch := decide) [argsConstructorName, nullFree_append_iff, nullFree_snake]

end Names

end Naming

theorem nullFree_toString (number : Nat) : NullFree (toString number) :=
  nullFree_of_isNameChar (Naming.isNameChar_toString number)

namespace Naming

theorem nullFree_enumMemberNames (labels : List String) :
    ∀ name ∈ enumMemberNames labels, NullFree name := by
  intro name member
  exact nullFree_of_isNameChar (isNameChar_enumMemberNames labels name member)

end Naming

@[simp] theorem nullFree_literalOf (text : String) : NullFree (Text.literalOf text) := by
  rw [Text.literalOf, nullFree_ofList_iff]
  exact fun member => absurd (isPrintable_of_mem_literal member) (by decide)

namespace Emission

open ProtocolGen.Types

/-! ## Types in code -/

/-- A resolved type whose declared types have names without null characters. -/
def IsPlainlyNamed (ref : TypeRef) : Prop := ∀ declared ∈ ref.names, NullFree declared.className

theorem isPlainlyNamed_of_resolve {index : TypeIndex} {domain : String} {owner : Option String}
    {expression : TypeExpression} {ref : TypeRef}
    (resolved : index.resolve domain owner expression = .ok ref) : IsPlainlyNamed ref := by
  intro declared member
  obtain ⟨info, -, rfl⟩ := TypeIndex.names_of_resolve resolved declared member
  exact Naming.nullFree_className info.id

theorem nullFree_iff_eachChar {text : String} : NullFree text ↔ EachChar (· ≠ nullCharacter) text :=
  ⟨fun free _ member same => free (same ▸ member), fun each null => each nullCharacter null rfl⟩

theorem ne_nullCharacter_of_isCodeChar : ∀ char, IsCodeChar char → char ≠ nullCharacter := by
  rintro _ code rfl
  exact absurd code (by decide)

section Refs

variable (scope : Scope)

theorem nullFree_qualifiedName {declared : Declared} (plain : NullFree declared.className) :
    NullFree (qualifiedName scope declared) := by
  rw [nullFree_iff_eachChar] at plain ⊢
  exact eachChar_qualifiedName ne_nullCharacter_of_isCodeChar scope plain

variable {ref : TypeRef} (plain : IsPlainlyNamed ref)

theorem nullFree_encode (ref : TypeRef) {source : String} (free : NullFree source) (depth : Nat) :
    NullFree (encode ref source depth) := by
  rw [nullFree_iff_eachChar] at free ⊢
  exact eachChar_encode ne_nullCharacter_of_isCodeChar free ref depth

include plain

theorem nullFree_annotation (quoted : Bool) : NullFree <| annotation scope quoted ref := by
  have named {declared : Declared} (plain : NullFree declared.className) :
      NullFree (quotedIf quoted (qualifiedName scope declared)) := by
    unfold quotedIf
    split <;> simp (disch := decide) [nullFree_append_iff, nullFree_qualifiedName scope plain]
  induction ref with
  | primitive primitive =>
    unfold annotation
    cases primitive <;> decide
  | any | map =>
    unfold annotation
    decide
  | array item ih =>
    rw [ annotation, nullFree_append_iff, nullFree_append_iff]
    exact ⟨⟨nullFree_literal (by decide), ih plain⟩, nullFree_literal (by decide)⟩
  | record declared | enumeration declared | raw declared =>
    exact named (plain declared List.mem_cons_self)
  | _ declared meaning => exact named (plain declared List.mem_cons_self)

theorem nullFree_decode {source : String} (free : NullFree source) (depth : Nat) :
    NullFree (decode scope ref source depth) := by
  rw [nullFree_iff_eachChar] at free ⊢
  refine eachChar_decode ne_nullCharacter_of_isCodeChar free scope (fun declared member => ?_) depth
  exact nullFree_iff_eachChar.mp (plain declared member)

theorem isPlainlyNamed_target : IsPlainlyNamed ref.target :=
  fun declared member => plain declared (ref.names_target_subset member)

end Refs

/-! ## Fields -/

/-- A field whose code has no null characters. -/
structure Field.IsPlain (field : Field) : Prop where
  memberName : NullFree field.memberName
  ref : IsPlainlyNamed field.ref

theorem isPlain_of_fieldsOf {index : TypeIndex} {scope : Scope} {domain owner : String}
    {properties : List Property} {fields : List Field}
    (made : fieldsOf index scope domain owner properties = .ok fields) :
    ∀ field ∈ fields, field.IsPlain := by
  intro field member
  obtain ⟨property, ref, resolved, rfl⟩ := exists_fieldOf_of_mem made member
  exact ⟨Naming.nullFree_attributeName property.name, isPlainlyNamed_of_resolve resolved⟩

namespace Field.IsPlain

variable {field : Field} (plain : field.IsPlain) (scope : Scope)

include plain

theorem annotation : NullFree <| field.annotation scope := by
  have text := nullFree_annotation scope plain.ref false
  unfold Field.annotation
  dsimp only
  split
  · exact nullFree_append_iff.mpr ⟨text, nullFree_literal (by decide)⟩
  · exact text

theorem place : NullFree field.place :=
  nullFree_append_iff.mpr ⟨nullFree_literal (by decide), plain.memberName⟩

theorem presence : NullFree field.presence := by
  unfold Field.presence
  split
  · exact nullFree_append_iff.mpr ⟨plain.place, nullFree_literal (by decide)⟩
  · exact plain.place

theorem encoded : NullFree field.encoded := nullFree_encode field.ref plain.place 0

theorem default? {text : String} (given : field.default? scope = some text) : NullFree text := by
  have target := isPlainlyNamed_target plain.ref
  have made {maker : String} (free : NullFree maker) : NullFree (factory maker) :=
    nullFree_append_iff.mpr
      ⟨nullFree_append_iff.mpr ⟨nullFree_literal (by decide), free⟩, nullFree_literal (by decide)⟩
  have named {declared : Declared} (only : field.ref.target.names = [declared]) {ending : String}
      (free : NullFree ending) :
      NullFree (factory ("lambda: " ++ qualifiedName scope declared ++ ending)) := by
    have name := nullFree_qualifiedName scope (target declared (by simp [only]))
    exact made (nullFree_append_iff.mpr
      ⟨nullFree_append_iff.mpr ⟨nullFree_literal (by decide), name⟩, free⟩)
  unfold Field.default? at given
  split at given
  · cases given
    decide
  · split at given
    · cases given
    · split at given
      · next found =>
        cases given
        exact named (by rw [found]; rfl) (nullFree_literal (by decide))
      · next found =>
        cases given
        exact named (by rw [found]; rfl) (nullFree_literal (by decide))
      · cases given
        exact made (nullFree_literal (by decide))
      · cases given
        exact made (nullFree_literal (by decide))
      · cases given
        decide

theorem fromWire : NullFree (field.fromWire scope) := by
  have get : NullFree field.wireGet := by
    simp (disch := decide) [wireGet, key, nullFree_append_iff]
  have item : NullFree field.wireItem := by
    simp (disch := decide) [wireItem, key, nullFree_append_iff]
  have decoded {source : String} (free : NullFree source) :
      NullFree (decode scope field.ref source 0) :=
    nullFree_decode scope plain.ref free 0
  unfold Field.fromWire
  dsimp only
  split
  · split
    · exact get
    · simp (disch := decide) [nullFree_append_iff, decoded item, get]
  · split
    · exact decoded item
    · split
      · exact decoded get
      · exact decoded get
      · exact decoded (nullFree_append_iff.mpr ⟨get, nullFree_literal (by decide)⟩)
      · simp (disch := decide) [nullFree_append_iff, get]
      · exact get

end Field.IsPlain

end Emission

end ProtocolGen
