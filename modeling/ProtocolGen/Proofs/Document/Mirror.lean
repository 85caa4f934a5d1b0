import Mathlib.Data.List.Forall2
import ProtocolGen.Document.Load
import ProtocolGen.Proofs.Document.Shapes

/-!
# Protocols that mirror documents

When a protocol has the content of a document, part by part and in order: texts and flags as they are,
absent texts as none, absent flags as false, absent lists as empty. A document has at most one such
protocol, and one of the right shape without obstacles is decoded to it.
-/

set_option autoImplicit false

namespace ProtocolGen.Document

/-! ## Members and what they are read as -/

/-- A text, or none where the member is absent. -/
def TextMember (name : String) (data : Data) (text : Option String) : Prop :=
  data.member? name = text.map fun string => .text (Text.ofString string)

/-- A flag, false where the member is absent. -/
def FlagMember (name : String) (data : Data) (flag : Bool) : Prop :=
  data.member? name = some (.boolean flag) ∨ data.member? name = none ∧ flag = false

/-- A list whose items are read one by one. -/
def ReadsList {Part : Type} (Reads : Data → Part → Prop) (data : Data) (parts : List Part) : Prop :=
  ∃ items, data = .list items ∧ List.Forall₂ Reads items parts

/-- A list, or none where the member is absent. -/
def OptionalList {Part : Type} (name : String) (Reads : Data → Part → Prop) (data : Data)
    (parts : Option (List Part)) : Prop :=
  Option.Rel (ReadsList Reads) (data.member? name) parts

/-- A list, empty where the member is absent. -/
def ListMember {Part : Type} (name : String) (Reads : Data → Part → Prop) (data : Data)
    (parts : List Part) : Prop :=
  ∃ found, OptionalList name Reads data found ∧ parts = found.getD []

def ReadsText (data : Data) (text : String) : Prop := data = .text (Text.ofString text)

/-- The marked spelling of a reference where it is present, and otherwise the other one, which may also
be null. -/
def ReferenceMember (data : Data) (reference : Option String) : Prop :=
  if (data.member? "$ref").isSome then TextMember "$ref" data reference
  else TextMember "ref" data reference ∨ data.member? "ref" = some .null ∧ reference = none

/-! ## Parts of a protocol and of a document -/

structure MirrorsFacets (data : Data) (facets : Facets) : Prop where
  description : TextMember "description" data facets.description
  type : TextMember "type" data facets.type
  reference : ReferenceMember data facets.reference
  enumeration : OptionalList "enum" ReadsText data facets.enumeration

inductive MirrorsExpression : Data → TypeExpression → Prop
  | plain {data : Data} {facets : Facets} (same : MirrorsFacets data facets)
      (absent : data.member? "items" = none) : MirrorsExpression data (.plain facets)
  | withItems {data items : Data} {facets : Facets} {expression : TypeExpression}
      (same : MirrorsFacets data facets) (found : data.member? "items" = some items)
      (below : MirrorsExpression items expression) :
      MirrorsExpression data (.withItems facets expression)

structure MirrorsProperty (data : Data) (property : Property) : Prop where
  expression : MirrorsExpression data property.expression
  name : TextMember "name" data (some property.name)
  optional : FlagMember "optional" data property.optional
  experimental : FlagMember "experimental" data property.experimental
  deprecated : FlagMember "deprecated" data property.deprecated

structure MirrorsDeclaration (data : Data) (declaration : TypeDeclaration) : Prop where
  expression : MirrorsExpression data declaration.expression
  id : TextMember "id" data (some declaration.id)
  properties : OptionalList "properties" MirrorsProperty data declaration.properties
  experimental : FlagMember "experimental" data declaration.experimental
  deprecated : FlagMember "deprecated" data declaration.deprecated

structure MirrorsCommand (data : Data) (command : Command) : Prop where
  name : TextMember "name" data (some command.name)
  description : TextMember "description" data command.description
  parameters : ListMember "parameters" MirrorsProperty data command.parameters
  returns : ListMember "returns" MirrorsProperty data command.returns
  experimental : FlagMember "experimental" data command.experimental
  deprecated : FlagMember "deprecated" data command.deprecated

structure MirrorsEvent (data : Data) (event : Event) : Prop where
  name : TextMember "name" data (some event.name)
  description : TextMember "description" data event.description
  parameters : ListMember "parameters" MirrorsProperty data event.parameters
  experimental : FlagMember "experimental" data event.experimental
  deprecated : FlagMember "deprecated" data event.deprecated

structure MirrorsDomain (data : Data) (domain : Domain) : Prop where
  name : TextMember "domain" data (some domain.name)
  description : TextMember "description" data domain.description
  experimental : FlagMember "experimental" data domain.experimental
  deprecated : FlagMember "deprecated" data domain.deprecated
  types : ListMember "types" MirrorsDeclaration data domain.types
  commands : ListMember "commands" MirrorsCommand data domain.commands
  events : ListMember "events" MirrorsEvent data domain.events

structure Mirrors (data : Data) (protocol : Protocol) : Prop where
  version : protocol.version = data.member? "version"
  domains : OptionalList "domains" MirrorsDomain data (some protocol.domains)

/-! ## A document has one protocol at most -/

section Unique

variable {Part : Type} {Reads : Data → Part → Prop} {name : String}

theorem rightUnique_textMember : Relator.RightUnique (TextMember name) := by
  intro data text other read otherRead
  rw [TextMember] at read otherRead
  refine Option.map_injective ?_ (read.symm.trans otherRead)
  exact fun left right same => Text.ofString_inj.mp (Data.text.inj same)

theorem requiredText_unique {data : Data} {text other : String}
    (read : TextMember name data (some text)) (otherRead : TextMember name data (some other)) :
    text = other :=
  Option.some.inj (rightUnique_textMember read otherRead)

theorem rightUnique_flagMember : Relator.RightUnique (FlagMember name) := by
  intro data flag other read otherRead
  rcases read with found | ⟨absent, rfl⟩ <;> rcases otherRead with otherFound | ⟨otherAbsent, rfl⟩
  · exact Data.boolean.inj (Option.some.inj (found.symm.trans otherFound))
  · cases found.symm.trans otherAbsent
  · cases absent.symm.trans otherFound
  · rfl

theorem rightUnique_readsText : Relator.RightUnique ReadsText := by
  intro data text other read otherRead
  exact Text.ofString_inj.mp (Data.text.inj (read.symm.trans otherRead))

theorem rightUnique_readsList (unique : Relator.RightUnique Reads) :
    Relator.RightUnique (ReadsList Reads) := by
  rintro data parts others ⟨items, rfl, read⟩ ⟨otherItems, same, otherRead⟩
  cases same
  exact unique.forall₂ read otherRead

theorem rightUnique_optionalList (unique : Relator.RightUnique Reads) :
    Relator.RightUnique (OptionalList name Reads) := by
  intro data parts others read otherRead
  unfold OptionalList at read otherRead
  generalize data.member? name = found at read otherRead
  cases read with
  | none =>
    cases otherRead
    rfl
  | some list =>
    cases otherRead with
    | some otherList => rw [rightUnique_readsList unique list otherList]

theorem rightUnique_listMember (unique : Relator.RightUnique Reads) :
    Relator.RightUnique (ListMember name Reads) := by
  rintro data _ _ ⟨parts, read, rfl⟩ ⟨others, otherRead, rfl⟩
  rw [rightUnique_optionalList unique read otherRead]

theorem rightUnique_referenceMember : Relator.RightUnique ReferenceMember := by
  intro data reference other read otherRead
  unfold ReferenceMember at read otherRead
  split at read
  · next marked =>
    rw [if_pos marked] at otherRead
    exact rightUnique_textMember read otherRead
  · next unmarked =>
    rw [if_neg unmarked] at otherRead
    have none_of_null {text : Option String} (null : data.member? "ref" = some .null)
        (read : TextMember "ref" data text) : text = none := by
      rw [TextMember, null] at read
      cases text with
      | none => rfl
      | some string => cases read
    rcases read with text | ⟨null, rfl⟩ <;> rcases otherRead with otherText | ⟨otherNull, rfl⟩
    · exact rightUnique_textMember text otherText
    · exact none_of_null otherNull text
    · exact (none_of_null null otherText).symm
    · rfl

theorem rightUnique_mirrorsFacets : Relator.RightUnique MirrorsFacets := by
  rintro data ⟨⟩ ⟨⟩ ⟨description, type, reference, enumeration⟩
    ⟨otherDescription, otherType, otherReference, otherEnumeration⟩
  obtain rfl := rightUnique_textMember description otherDescription
  obtain rfl := rightUnique_textMember type otherType
  obtain rfl := rightUnique_referenceMember reference otherReference
  obtain rfl := rightUnique_optionalList rightUnique_readsText enumeration otherEnumeration
  rfl

theorem rightUnique_mirrorsExpression : Relator.RightUnique MirrorsExpression := by
  intro data expression other read otherRead
  induction read generalizing other with
  | plain same absent =>
    cases otherRead with
    | plain otherSame _ => rw [rightUnique_mirrorsFacets same otherSame]
    | withItems _ found _ => cases absent.symm.trans found
  | withItems same found below ih =>
    cases otherRead with
    | plain _ absent => cases absent.symm.trans found
    | withItems otherSame otherFound otherBelow =>
      cases found.symm.trans otherFound
      rw [rightUnique_mirrorsFacets same otherSame, ih otherBelow]

theorem rightUnique_mirrorsProperty : Relator.RightUnique MirrorsProperty := by
  rintro data ⟨⟩ ⟨⟩ ⟨expression, name, optional, experimental, deprecated⟩
    ⟨otherExpression, otherName, otherOptional, otherExperimental, otherDeprecated⟩
  obtain rfl := rightUnique_mirrorsExpression expression otherExpression
  obtain rfl := requiredText_unique name otherName
  obtain rfl := rightUnique_flagMember optional otherOptional
  obtain rfl := rightUnique_flagMember experimental otherExperimental
  obtain rfl := rightUnique_flagMember deprecated otherDeprecated
  rfl

theorem rightUnique_mirrorsDeclaration : Relator.RightUnique MirrorsDeclaration := by
  rintro data ⟨⟩ ⟨⟩ ⟨expression, id, properties, experimental, deprecated⟩
    ⟨otherExpression, otherId, otherProperties, otherExperimental, otherDeprecated⟩
  obtain rfl := rightUnique_mirrorsExpression expression otherExpression
  obtain rfl := requiredText_unique id otherId
  obtain rfl := rightUnique_optionalList rightUnique_mirrorsProperty properties otherProperties
  obtain rfl := rightUnique_flagMember experimental otherExperimental
  obtain rfl := rightUnique_flagMember deprecated otherDeprecated
  rfl

theorem rightUnique_mirrorsCommand : Relator.RightUnique MirrorsCommand := by
  rintro data ⟨⟩ ⟨⟩ ⟨name, description, parameters, returns, experimental, deprecated⟩
    ⟨otherName, otherDescription, otherParameters, otherReturns, otherExperimental, otherDeprecated⟩
  obtain rfl := requiredText_unique name otherName
  obtain rfl := rightUnique_textMember description otherDescription
  obtain rfl := rightUnique_listMember rightUnique_mirrorsProperty parameters otherParameters
  obtain rfl := rightUnique_listMember rightUnique_mirrorsProperty returns otherReturns
  obtain rfl := rightUnique_flagMember experimental otherExperimental
  obtain rfl := rightUnique_flagMember deprecated otherDeprecated
  rfl

theorem rightUnique_mirrorsEvent : Relator.RightUnique MirrorsEvent := by
  rintro data ⟨⟩ ⟨⟩ ⟨name, description, parameters, experimental, deprecated⟩
    ⟨otherName, otherDescription, otherParameters, otherExperimental, otherDeprecated⟩
  obtain rfl := requiredText_unique name otherName
  obtain rfl := rightUnique_textMember description otherDescription
  obtain rfl := rightUnique_listMember rightUnique_mirrorsProperty parameters otherParameters
  obtain rfl := rightUnique_flagMember experimental otherExperimental
  obtain rfl := rightUnique_flagMember deprecated otherDeprecated
  rfl

theorem rightUnique_mirrorsDomain : Relator.RightUnique MirrorsDomain := by
  rintro data ⟨⟩ ⟨⟩ ⟨name, description, experimental, deprecated, types, commands, events⟩
    ⟨otherName, otherDescription, otherExperimental, otherDeprecated, otherTypes, otherCommands,
      otherEvents⟩
  obtain rfl := requiredText_unique name otherName
  obtain rfl := rightUnique_textMember description otherDescription
  obtain rfl := rightUnique_flagMember experimental otherExperimental
  obtain rfl := rightUnique_flagMember deprecated otherDeprecated
  obtain rfl := rightUnique_listMember rightUnique_mirrorsDeclaration types otherTypes
  obtain rfl := rightUnique_listMember rightUnique_mirrorsCommand commands otherCommands
  obtain rfl := rightUnique_listMember rightUnique_mirrorsEvent events otherEvents
  rfl

/-- No two protocols mirror one document. -/
theorem Mirrors.unique {data : Data} {protocol other : Protocol} (mirrors : Mirrors data protocol)
    (otherMirrors : Mirrors data other) : protocol = other := by
  obtain ⟨version, domains⟩ := protocol
  obtain ⟨otherVersion, otherDomains⟩ := other
  obtain rfl : version = otherVersion := mirrors.version.trans otherMirrors.version.symm
  obtain rfl : domains = otherDomains := Option.some.inj
    (rightUnique_optionalList rightUnique_mirrorsDomain mirrors.domains otherMirrors.domains)
  rfl

end Unique

end ProtocolGen.Document
