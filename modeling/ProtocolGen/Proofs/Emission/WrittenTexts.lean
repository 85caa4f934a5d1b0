import ProtocolGen.Emission.EventsModule
import ProtocolGen.Proofs.Emission.FieldViews
import ProtocolGen.Proofs.Source.Quotations
import ProtocolGen.Proofs.Wire.Enumeration

/-!
# Texts of the protocol in code

The names of properties, the wire names of commands and events and the labels of enumerations stand in the
code as literals. Each literal denotes the text that it was written for, and the lines that write and read a
record, name the commands and events, or give the labels have these literals and no others.
-/

set_option autoImplicit false

namespace ProtocolGen.Emission

open ProtocolGen.Types ProtocolGen.Source

/-! ## Lines of code -/

/-- The texts that the literals in lines of code denote, in order. -/
def quotedTexts : List Edit → Option (List Text)
  | [] => some []
  | .line text _ :: rest => (texts? text).bind fun found => (quotedTexts rest).map (found ++ ·)
  | _ :: rest => quotedTexts rest

/-- The lines of code at an indent. -/
def linesAt (indent : Nat) (edits : List Edit) : List String :=
  edits.filterMap fun
    | .line text place => if place = indent then some text else none
    | _ => none

section Lines

variable {edits : List Edit} {texts : List Text}

theorem quotedTexts_line {text : String} {found : List Text} (quotes : Quotes text.toList found)
    (indent : Nat) (rest : quotedTexts edits = some texts) :
    quotedTexts (.line text indent :: edits) = some (found ++ texts) := by
  rw [quotedTexts, texts?_of_quotes quotes, rest]
  rfl

theorem quotedTexts_append {others : List Edit} {more : List Text} (first : quotedTexts edits = some texts)
    (second : quotedTexts others = some more) : quotedTexts (edits ++ others) = some (texts ++ more) := by
  fun_induction quotedTexts edits generalizing texts with
  | case1 =>
    cases first
    exact second
  | case2 text indent rest ih =>
    obtain ⟨found, read, first⟩ := Option.bind_eq_some_iff.mp first
    obtain ⟨others, behind, rfl⟩ := Option.map_eq_some_iff.mp first
    rw [List.cons_append, quotedTexts, read, Option.bind_some, ih behind, List.append_assoc]
    rfl
  | case3 edit rest other ih =>
    rw [List.cons_append, quotedTexts, ih first]
    exact other

theorem quotedTexts_flatMap {Item : Type} {items : List Item} {step : Item → List Edit}
    {found : Item → List Text} (each : ∀ item ∈ items, quotedTexts (step item) = some (found item)) :
    quotedTexts (items.flatMap step) = some (items.flatMap found) := by
  induction items with
  | nil => rfl
  | cons item items ih =>
    rw [List.forall_mem_cons] at each
    exact quotedTexts_append each.1 (ih each.2)

end Lines

/-! ## Bare code -/

theorem isBare_of_isCodeChar {text : String} (each : EachChar IsCodeChar text) : IsBare text.toList := by
  have others : ∀ mark ∈ ['\'', '"', '#'], ¬ IsCodeChar mark := by decide
  exact fun char member mark => others char mark (each char member)

theorem isBare_append {text more : String} (bare : IsBare text.toList) (others : IsBare more.toList) :
    IsBare (text ++ more).toList := by
  rw [String.toList_append]
  exact List.forall_mem_append.mpr ⟨bare, others⟩

/-- Code with one literal in it. -/
theorem quotes_literalOf {front back : String} (bare : IsBare front.toList) (leads : Leads front.toList)
    (text : String) (others : IsBare back.toList) :
    Quotes (front ++ Text.literalOf text ++ back).toList [Text.ofString text] := by
  rw [String.toList_append, String.toList_append, Text.literalOf, String.toList_ofList, List.append_assoc]
  exact .literal bare leads _ (.bare others)

theorem quotes_append {text more : String} {found others : List Text} (first : Quotes text.toList found)
    (second : Quotes more.toList others) : Quotes (text ++ more).toList (found ++ others) := by
  rw [String.toList_append]
  exact first.append second

/-- A conversion whose code has no literals of its own keeps those of what it converts. -/
theorem quotes_frame {code : String → String} (frame : IsFrame code) (chars : EachChar IsCodeChar (code ""))
    {source : String} {texts : List Text} (quotes : Quotes source.toList texts) :
    Quotes (code source).toList texts := by
  obtain ⟨front, back, -, -, framed⟩ := frame
  rw [framed, eachChar_append_iff, eachChar_append_iff] at chars
  obtain ⟨⟨frontChars, -⟩, backChars⟩ := chars
  rw [framed, String.toList_append, String.toList_append]
  exact (quotes.append_front (isBare_of_isCodeChar frontChars)).append_bare (isBare_of_isCodeChar backChars)

/-! ## Fields -/

/-- A field whose code has plain names only. -/
structure Field.IsNamed (field : Field) : Prop where
  memberName : EachChar IsCodeChar field.memberName
  ref : ∀ declared ∈ field.ref.names, ∀ char ∈ declared.className.toList, Naming.isNameChar char

theorem isNamed_of_fieldsOf {index : TypeIndex} {scope : Scope} {domain owner : String}
    {properties : List Property} {fields : List Field}
    (made : fieldsOf index scope domain owner properties = .ok fields) :
    ∀ field ∈ fields, field.IsNamed := by
  intro field member
  obtain ⟨property, ref, resolved, rfl⟩ := exists_fieldOf_of_mem made member
  exact ⟨fun char inName => .inl (isNameChar_attributeName property.name char inName),
    isNameChar_of_resolve resolved⟩

/-- Code that names a key once or more and quotes no other text. -/
def QuotesOnly (key : Text) (code : String) : Prop :=
  ∃ count, Quotes code.toList (List.replicate (count + 1) key)

section Fields

variable {field : Field} (named : field.IsNamed)

/-- The text that stands for a field on the wire. -/
def Field.keyText (field : Field) : Text := Text.ofString field.property.name

theorem quotes_wireItem (field : Field) : Quotes field.wireItem.toList [field.keyText] :=
  quotes_literalOf (by decide) ⟨'[', rfl, by decide⟩ field.property.name (by decide)

theorem quotes_wireGet (field : Field) : Quotes field.wireGet.toList [field.keyText] :=
  quotes_literalOf (by decide) ⟨'(', rfl, by decide⟩ field.property.name (by decide)

include named

theorem isBare_place : IsBare field.place.toList :=
  isBare_append (by decide) (isBare_of_isCodeChar named.memberName)

theorem isBare_presence : IsBare field.presence.toList := by
  unfold Field.presence
  split
  · exact isBare_append (isBare_place named) (by decide)
  · exact isBare_place named

theorem isBare_encoded : IsBare field.encoded.toList := by
  have place : EachChar IsCodeChar field.place := eachChar_append_iff.mpr ⟨by decide, named.memberName⟩
  exact isBare_of_isCodeChar (eachChar_encode (fun _ code => code) place field.ref 0)

theorem quotes_assignment {more : String} (bare : IsBare more.toList) :
    Quotes ("data[" ++ field.key ++ "] = " ++ field.encoded ++ more).toList [field.keyText] := by
  have behind : IsBare ("] = " ++ field.encoded ++ more).toList :=
    isBare_append (isBare_append (by decide) (isBare_encoded named)) bare
  have text : "data[" ++ field.key ++ "] = " ++ field.encoded ++ more =
      "data[" ++ Text.literalOf field.property.name ++ ("] = " ++ field.encoded ++ more) := by
    simp only [Field.key, String.append_assoc]
  rw [text]
  exact quotes_literalOf (by decide) ⟨'[', rfl, by decide⟩ field.property.name behind

/-- The lines that write a field name its key once. -/
theorem quotedTexts_toWireEdits : quotedTexts (toWireEdits field) = some [field.keyText] := by
  have plain := quotes_assignment named (show IsBare "".toList by decide)
  rw [String.append_empty] at plain
  have test : IsBare ("if " ++ field.presence ++ ":").toList :=
    isBare_append (isBare_append (by decide) (isBare_presence named)) (by decide)
  unfold toWireEdits
  dsimp only
  split
  · exact quotedTexts_line (.bare test) 2 (quotedTexts_line plain 3 rfl)
  · split
    · have guarded : IsBare (" if " ++ field.place ++ " is not None else None").toList :=
        isBare_append (isBare_append (by decide) (isBare_place named)) (by decide)
      have quotes := quotes_assignment named guarded
      rw [← String.append_assoc, ← String.append_assoc] at quotes
      exact quotedTexts_line quotes 2 rfl
    · exact quotedTexts_line plain 2 rfl

theorem quotesOnly_fromWire (scope : Scope) : QuotesOnly field.keyText (field.fromWire scope) := by
  have chars : EachChar IsCodeChar (decode scope field.ref "" 0) := by
    refine eachChar_decode (fun _ code => code) (by decide) scope (fun declared member => ?_) 0
    exact fun char inName => .inl (named.ref declared member char inName)
  have decoded {source : String} (quotes : Quotes source.toList [field.keyText]) :
      Quotes (decode scope field.ref source 0).toList [field.keyText] :=
    quotes_frame (isFrame_decode scope named.ref 0) chars quotes
  have get := quotes_wireGet field
  have item := quotes_wireItem field
  unfold Field.fromWire
  dsimp only
  split
  · split
    · exact ⟨0, get⟩
    · refine ⟨1, ?_⟩
      have test := quotes_append (.bare (show IsBare " if ".toList by decide)) get
      have guarded := quotes_append (quotes_append (decoded item) test)
        (.bare (show IsBare " is not None else None".toList by decide))
      rwa [← String.append_assoc] at guarded
  · split
    · exact ⟨0, decoded item⟩
    · split
      · exact ⟨0, decoded get⟩
      · exact ⟨0, decoded get⟩
      · exact ⟨0, decoded (quotes_append get (.bare (by decide)))⟩
      · have front := quotes_append (.bare (show IsBare "dict(".toList by decide)) get
        exact ⟨0, quotes_append front (.bare (by decide))⟩
      · exact ⟨0, get⟩

end Fields

/-! ## Records, registries and labels -/

/-- The line that reads the value of a property: its literals denote the name of the property, and there
are some. -/
def ReadsProperty (property : Property) (line : String) : Prop :=
  ∃ count, texts? line = some (List.replicate (count + 1) (Text.ofString property.name))

section Records

variable {fields : List Field} (named : ∀ field ∈ fields, field.IsNamed)

include named

theorem quotedTexts_toDictEdits : quotedTexts (toDictEdits fields) = some (fields.map Field.keyText) := by
  have head : quotedTexts [.blank 1, .line "def to_dict(self) -> dict[str, Any]:" 1,
      .line "data: dict[str, Any] = \x7b\x7d" 2] = some [] :=
    quotedTexts_line (.bare (by decide)) 1 (quotedTexts_line (.bare (by decide)) 2 rfl)
  have last : quotedTexts [.line "return data" 2] = some [] :=
    quotedTexts_line (.bare (by decide)) 2 rfl
  have body := quotedTexts_flatMap fun field member => quotedTexts_toWireEdits (named field member)
  have all := quotedTexts_append (quotedTexts_append head body) last
  rw [List.append_nil, List.nil_append, ← List.map_eq_flatMap] at all
  exact all

theorem readsProperty_fromDictEdits (scope : Scope) (owner : String) :
    List.Forall₂ ReadsProperty (fields.map Field.property) (linesAt 3 (fromDictEdits scope owner fields)) := by
  have lines : linesAt 3 (fromDictEdits scope owner fields) =
      fields.map fun field => field.memberName ++ "=" ++ field.fromWire scope ++ "," := by
    unfold fromDictEdits
    split
    · next empty =>
      rw [List.isEmpty_iff.mp empty]
      rfl
    · simp [linesAt, List.filterMap_append, List.filterMap_map]
  rw [lines, List.forall₂_map_left_iff, List.forall₂_map_right_iff, List.forall₂_same]
  intro field member
  obtain ⟨count, quotes⟩ := quotesOnly_fromWire (named field member) scope
  have front : IsBare (field.memberName ++ "=").toList :=
    isBare_append (isBare_of_isCodeChar (named field member).memberName) (by decide)
  have line := quotes_append (quotes_append (.bare front) quotes) (.bare (show IsBare ",".toList by decide))
  rw [List.nil_append, List.append_nil] at line
  have read := texts?_of_quotes line
  exact ⟨count, read⟩

end Records

/-- A line of a registry, which gives a name to a wire name. -/
theorem quotes_registryLine (domain name : String) :
    Quotes (Naming.memberName domain name ++ " = " ++ Text.literalOf (wireName domain name)).toList
      [Text.ofString (wireName domain name)] := by
  have front : IsBare (Naming.memberName domain name ++ " = ").toList := by
    refine isBare_append (isBare_of_isCodeChar fun char member => ?_) (by decide)
    exact .inl (Naming.isNameChar_of_mem_memberName member)
  have leads : Leads (Naming.memberName domain name ++ " = ").toList := by
    rw [String.toList_append]
    exact Leads.append ⟨' ', rfl, by decide⟩ _
  have line := quotes_literalOf front leads (wireName domain name) (show IsBare "".toList by decide)
  rwa [String.append_empty] at line

theorem quotedTexts_registryEdits (heading documentation : String) {className : String}
    (bare : IsBare className.toList) (entries : List (String × String)) :
    quotedTexts (registryEdits heading className documentation entries) =
      some (entries.map fun entry => Text.ofString (wireName entry.1 entry.2)) := by
  have gap : quotedTexts (if entries.isEmpty then [] else [.blank 1]) = some [] := by split <;> rfl
  have lines : quotedTexts (entries.map fun entry => .line (Naming.memberName entry.1 entry.2 ++ " = " ++
      Text.literalOf (wireName entry.1 entry.2)) 1) =
      some (entries.map fun entry => Text.ofString (wireName entry.1 entry.2)) := by
    rw [List.map_eq_flatMap, List.map_eq_flatMap]
    exact quotedTexts_flatMap fun entry _ => quotedTexts_line (quotes_registryLine entry.1 entry.2) 1 rfl
  have head : quotedTexts [.header (some heading), .declare, .require "enum" ["StrEnum"], .blank 2,
      .line ("class " ++ className ++ "(StrEnum):") 0, .docstring [documentation] 1] = some [] :=
    quotedTexts_line (.bare (isBare_append (isBare_append (by decide) bare) (by decide))) 0 rfl
  exact quotedTexts_append (quotedTexts_append head gap) lines

theorem toList_intercalate_literalOf (first : String) (others : List String) :
    (", ".intercalate ((first :: others).map Text.literalOf)).toList =
      Text.literal (Text.ofString first) ++ literalsBehind (others.map Text.ofString) := by
  have one (label : String) : (Text.literalOf label).toList = Text.literal (Text.ofString label) :=
    String.toList_ofList
  induction others generalizing first with
  | nil => rw [List.map_singleton, String.intercalate_singleton, one]; simp [literalsBehind]
  | cons second others ih =>
    rw [List.map_cons, List.map_cons, String.intercalate_cons_cons, String.toList_append,
      String.toList_append, ← List.map_cons, ih, one]
    simp [literalsBehind]

/-- The tuple of the literals of labels is read as the labels, also when there is one. -/
theorem tuple?_tupleOf (labels : List String) :
    tuple? (Wire.Enumeration.tupleOf (labels.map Text.literalOf)) = some (labels.map Text.ofString) := by
  cases labels with
  | nil => decide
  | cons first others =>
    refine tuple?_literals (Text.ofString first) (others.map Text.ofString) ?_
    rw [Wire.Enumeration.tupleOf_eq, String.toList_append, String.toList_append, String.toList_append,
      toList_intercalate_literalOf]
    cases others with
    | nil => simp [literalsBehind]
    | cons second others => simp

/-- A literal denotes its text and stands on one line, whatever code points the text has. So the literals
in the code of a record denote the names of its properties, those of the registries the wire names of
commands and events, and the labels of an enumeration are written as a tuple of them. -/
theorem literals_denote_texts :
    (∀ text : Text, parts? (Text.literal text) = some [.text text] ∧
      ∀ char ∈ Text.literal text, char ∉ Text.lineBreaks) ∧
    (∀ (index : TypeIndex) (scope : Scope) (domain owner : String) (properties : List Property)
        (fields : List Field), fieldsOf index scope domain owner properties = .ok fields →
      quotedTexts (toDictEdits fields) =
          some (properties.map fun property => Text.ofString property.name) ∧
        List.Forall₂ ReadsProperty properties (linesAt 3 (fromDictEdits scope owner fields))) ∧
    (∀ domains : List Domain,
      quotedTexts (commandRegistryEdits domains) = some (domains.flatMap fun domain =>
          domain.commands.map fun command => Text.ofString (wireName domain.name command.name)) ∧
        quotedTexts (eventRegistryEdits domains) = some (domains.flatMap fun domain =>
          domain.events.map fun event => Text.ofString (wireName domain.name event.name))) ∧
    ∀ (runtimeModule name : String) (documentation labels : List String), ∃ code members,
      Wire.Enumeration.assignments (enumerationEdits runtimeModule name documentation labels) =
          ("__labels__", code) :: members ∧
        tuple? code = some (labels.map Text.ofString) := by
  refine ⟨fun text => ⟨?_, fun char => not_mem_lineBreaks_of_mem_literal⟩, ?_, fun domains => ⟨?_, ?_⟩, ?_⟩
  · have read := partsFrom_literal text []
    rwa [List.append_nil] at read
  · intro index scope domain owner properties fields made
    have named := isNamed_of_fieldsOf made
    rw [← properties_of_fieldsOf made, List.map_map]
    exact ⟨quotedTexts_toDictEdits named, readsProperty_fromDictEdits named scope owner⟩
  · rw [commandRegistryEdits, quotedTexts_registryEdits _ _ (by decide), List.map_flatMap]
    simp [List.map_map, Function.comp_def]
  · rw [eventRegistryEdits, quotedTexts_registryEdits _ _ (by decide), List.map_flatMap]
    simp [List.map_map, Function.comp_def]
  · intro runtimeModule name documentation labels
    exact ⟨_, _, Wire.Enumeration.assignments_enumerationEdits runtimeModule name documentation labels,
      tuple?_tupleOf labels⟩

def harpProperty (name : String) (optional : Bool) : Property :=
  ⟨.withItems ⟨none, some "array", none, none⟩ (.plain ⟨none, some "string", none, none⟩), name, optional,
    false, false⟩

/-- Properties with quotes, a line end, a line separator and a tag from the last plane in their names. -/
def harpProperties : List Property :=
  [harpProperty "it's" false, harpProperty "a \"b\"\n" true, harpProperty "\u2028\\" false,
    ⟨.plain ⟨none, some "any", none, none⟩, String.ofList ['\'', '"', Char.ofNat 0xE0001], true, false, false⟩]

/-- The names are written with either quote and with escapes of each width, and are read as they were. -/
theorem harp_literals_denote_texts :
    ∃ fields, fieldsOf ⟨[]⟩ none "Harp" "HarpTuneArgs" harpProperties = .ok fields ∧
      fields.map Field.key =
        ["\"it's\"", "'a \"b\"\\n'", "'\\u2028\\\\'", "'\\'\"\\U000e0001'"] ∧
      quotedTexts (toDictEdits fields) =
        some (harpProperties.map fun property => Text.ofString property.name) ∧
      List.Forall₂ ReadsProperty harpProperties (linesAt 3 (fromDictEdits none "HarpTuneArgs" fields)) := by
  obtain ⟨fields, made, keys⟩ : ∃ fields,
      fieldsOf ⟨[]⟩ none "Harp" "HarpTuneArgs" harpProperties = .ok fields ∧ fields.map Field.key =
        ["\"it's\"", "'a \"b\"\\n'", "'\\u2028\\\\'", "'\\'\"\\U000e0001'"] :=
    ⟨_, rfl, by decide +kernel⟩
  obtain ⟨-, records, -⟩ := literals_denote_texts
  exact ⟨fields, made, keys, records _ none "Harp" "HarpTuneArgs" harpProperties fields made⟩

end ProtocolGen.Emission
