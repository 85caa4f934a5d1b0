import ProtocolGen.Proofs.Document.Mirror

/-!
# Decoding mirrors the document

A document of the right shape in which nothing stands in the way of decoding is decoded to a protocol
that mirrors it. The proof goes part by part: what has the shape of a part and no obstacles is decoded
to a part that mirrors it.
-/

set_option autoImplicit false

namespace ProtocolGen.Document

/-! ## Texts that are strings -/

theorem mapM_char?_eq_some_iff {text : Text} {chars : List Char} :
    text.mapM CodePoint.char? = some chars ↔ text = Text.ofChars chars := by
  constructor
  · intro read
    induction text generalizing chars with
    | nil => simp_all [Text.ofChars]
    | cons point text ih =>
      simp only [List.mapM_cons, Option.bind_eq_bind, Option.bind_eq_some_iff, Option.pure_def,
        Option.some.injEq] at read
      obtain ⟨char, first, rest, others, rfl⟩ := read
      cases point with
      | scalar point =>
        cases first
        rw [ih others]
        rfl
      | surrogate index => cases first
  · rintro rfl
    exact Text.mapM_char?_ofChars chars

theorem toString?_eq_some_iff {text : Text} {string : String} :
    Text.toString? text = some string ↔ text = Text.ofString string := by
  constructor
  · intro read
    obtain ⟨chars, found, rfl⟩ := Option.map_eq_some_iff.mp read
    rw [mapM_char?_eq_some_iff.mp found, Text.ofString, String.toList_ofList]
  · rintro rfl
    exact Text.toString?_ofString string

/-! ## Values without obstacles -/

section Values

variable {data : Data} {name : String}

theorem within_eq_nil_iff {step : Step} {obstacles : List Obstacle} :
    within step obstacles = [] ↔ obstacles = [] :=
  List.map_eq_nil_iff

theorem stringObstacles_eq_nil_iff :
    stringObstacles data = [] ↔ data = .null ∨ ∃ string, data = .text (Text.ofString string) := by
  cases data with
  | text text =>
    have strings : (∃ string, Data.text text = .text (Text.ofString string)) ↔
        (Text.toString? text).isSome := by
      simp only [Option.isSome_iff_exists, toString?_eq_some_iff, Data.text.injEq]
    rw [stringObstacles, strings]
    split <;> simp_all
  | _ => simp [stringObstacles]

theorem memberObstacles_eq_nil_iff {obstaclesOf : Data → List Obstacle} :
    memberObstacles name obstaclesOf data = [] ↔
      Member name (fun value => obstaclesOf value = []) data := by
  rw [memberObstacles, Member]
  split
  · next value found => simp [found, within_eq_nil_iff]
  · next absent => simp [absent]

theorem itemObstaclesFrom_eq_nil_iff {obstaclesOf : Data → List Obstacle} {index : Nat}
    {items : List Data} :
    itemObstaclesFrom obstaclesOf index items = [] ↔ ∀ item ∈ items, obstaclesOf item = [] := by
  induction items generalizing index with
  | nil => simp [itemObstaclesFrom]
  | cons item items ih =>
    rw [itemObstaclesFrom, List.append_eq_nil_iff, within_eq_nil_iff, ih, List.forall_mem_cons]

theorem listObstacles_eq_nil_iff {obstaclesOf : Data → List Obstacle} {items : List Data} :
    listObstacles obstaclesOf (.list items) = [] ↔ ∀ item ∈ items, obstaclesOf item = [] :=
  itemObstaclesFrom_eq_nil_iff

end Values

/-! ## Members that are read -/

section Members

variable {data : Data} {name : String}

theorem textMember_of_clear (shape : Member name IsText data)
    (clear : memberObstacles name stringObstacles data = []) :
    TextMember name data (stringMember? name data) := by
  rw [memberObstacles_eq_nil_iff] at clear
  rw [TextMember, stringMember?]
  cases found : data.member? name with
  | none => rfl
  | some value =>
    obtain ⟨text, rfl⟩ := shape value found
    have strings : stringObstacles (.text text) = [] := clear _ found
    rw [stringObstacles_eq_nil_iff] at strings
    rcases strings with null | ⟨string, same⟩
    · cases null
    · cases same
      rw [Option.bind_some, string?, Text.toString?_ofString, Option.map_some]

theorem requiredText_of_clear (shape : Required name IsName data)
    (clear : memberObstacles name stringObstacles data = []) :
    TextMember name data (some ((stringMember? name data).getD "")) := by
  obtain ⟨value, found, text, rfl, -⟩ := shape
  have isText : Member name IsText data := by
    intro other otherFound
    cases found.symm.trans otherFound
    exact ⟨text, rfl⟩
  have read := textMember_of_clear isText clear
  cases string : stringMember? name data with
  | none =>
    rw [string, TextMember, found] at read
    cases read
  | some string' => rwa [string] at read

theorem flagMember_of_shape (shape : Member name IsFlag data) :
    FlagMember name data (flagMember name data) := by
  rw [FlagMember, flagMember]
  cases found : data.member? name with
  | none => exact .inr ⟨rfl, rfl⟩
  | some value =>
    obtain ⟨flag, rfl⟩ := shape value found
    exact .inl rfl

section Lists

variable {Part : Type} {Meets : Data → Prop} {obstaclesOf : Data → List Obstacle}
  {Reads : Data → Part → Prop} {decodeOf : Data → Part}

theorem optionalList_of_clear (shape : Member name (IsListOf Meets) data)
    (clear : memberObstacles name (listObstacles obstaclesOf) data = [])
    (reads : ∀ item, Meets item → obstaclesOf item = [] → Reads item (decodeOf item)) :
    OptionalList name Reads data ((listMember? name data).map (List.map decodeOf)) := by
  rw [memberObstacles_eq_nil_iff] at clear
  rw [OptionalList, listMember?]
  cases found : data.member? name with
  | none => exact .none
  | some value =>
    obtain ⟨items, rfl, meets⟩ := shape value found
    have free := listObstacles_eq_nil_iff.mp (clear _ found)
    refine .some ⟨items, rfl, List.forall₂_map_right_iff.mpr (List.forall₂_same.mpr ?_)⟩
    exact fun item member => reads item (meets item member) (free item member)

theorem listMember_of_clear (shape : Member name (IsListOf Meets) data)
    (clear : memberObstacles name (listObstacles obstaclesOf) data = [])
    (reads : ∀ item, Meets item → obstaclesOf item = [] → Reads item (decodeOf item)) :
    ListMember name Reads data ((listMember name data).map decodeOf) := by
  refine ⟨_, optionalList_of_clear shape clear reads, ?_⟩
  rw [listMember]
  cases listMember? name data <;> rfl

end Lists

theorem forall₂_readsText {items : List Data} (texts : ∀ item ∈ items, IsText item)
    (clear : ∀ item ∈ items, stringObstacles item = []) :
    List.Forall₂ ReadsText items (items.filterMap string?) := by
  induction items with
  | nil => exact .nil
  | cons item items ih =>
    rw [List.forall_mem_cons] at texts
    rw [List.forall_mem_cons, stringObstacles_eq_nil_iff] at clear
    obtain ⟨⟨text, rfl⟩, texts⟩ := texts
    obtain ⟨null | ⟨string, same⟩, clear⟩ := clear
    · cases null
    · cases same
      rw [List.filterMap_cons_some (by exact Text.toString?_ofString string)]
      exact .cons rfl (ih texts clear)

theorem labels_of_clear (shape : Member "enum" (IsListOf IsText) data)
    (clear : memberObstacles "enum" (listObstacles stringObstacles) data = []) :
    OptionalList "enum" ReadsText data
      ((listMember? "enum" data).map fun items => items.filterMap string?) := by
  rw [memberObstacles_eq_nil_iff] at clear
  rw [OptionalList, listMember?]
  cases found : data.member? "enum" with
  | none => exact .none
  | some value =>
    obtain ⟨items, rfl, texts⟩ := shape value found
    exact .some ⟨items, rfl, forall₂_readsText texts (listObstacles_eq_nil_iff.mp (clear _ found))⟩

/-- Where the marked spelling is absent the other one may be null, which is no reference. -/
theorem referenceMember_of_clear (shape : Member "$ref" IsName data)
    (clear : memberObstacles (referenceMember data) stringObstacles data = []) :
    ReferenceMember data (stringMember? (referenceMember data) data) := by
  rw [ReferenceMember]
  split
  · next marked =>
    rw [referenceMember, if_pos marked] at clear ⊢
    exact textMember_of_clear (shape.mono fun value ⟨text, same, _⟩ => ⟨text, same⟩) clear
  · next unmarked =>
    rw [referenceMember, if_neg unmarked] at clear ⊢
    rw [memberObstacles_eq_nil_iff] at clear
    rw [TextMember, stringMember?]
    cases found : data.member? "ref" with
    | none => exact .inl rfl
    | some value =>
      have strings : stringObstacles value = [] := clear _ found
      rw [stringObstacles_eq_nil_iff] at strings
      rcases strings with rfl | ⟨string, rfl⟩
      · exact .inr ⟨rfl, rfl⟩
      · rw [Option.bind_some, string?, Text.toString?_ofString]
        exact .inl rfl

end Members

/-! ## Parts without obstacles -/

section Parts

variable {data : Data}

theorem expressionObstacles_eq (data : Data) :
    expressionObstacles data =
      memberObstacles "description" stringObstacles data ++
        memberObstacles "type" stringObstacles data ++
        memberObstacles (referenceMember data) stringObstacles data ++
        memberObstacles "items" expressionObstacles data ++
        memberObstacles "enum" (listObstacles stringObstacles) data := by
  rw [expressionObstacles, memberObstacles.eq_1 "items"]
  split <;> simp_all

theorem mirrorsFacets_decode (facets : HasFacets data) (clear : expressionObstacles data = []) :
    MirrorsFacets data (decodeFacets data) := by
  rw [expressionObstacles_eq] at clear
  simp only [List.append_eq_nil_iff, and_assoc] at clear
  obtain ⟨description, type, reference, -, enumeration⟩ := clear
  exact ⟨textMember_of_clear facets.description description, textMember_of_clear facets.type type,
    referenceMember_of_clear facets.reference reference,
    labels_of_clear facets.enumeration enumeration⟩

theorem mirrorsExpression_decode (expression : IsExpression data)
    (clear : expressionObstacles data = []) : MirrorsExpression data (decodeExpression data) := by
  induction data using items_induction with
  | step data ih =>
    obtain ⟨facets, inItems⟩ := forall_within_iff.mp expression
    have same := mirrorsFacets_decode facets clear
    rw [expressionObstacles_eq, List.append_eq_nil_iff, List.append_eq_nil_iff] at clear
    have free := memberObstacles_eq_nil_iff.mp clear.1.2
    rw [decodeExpression]
    split
    · next items found =>
      exact .withItems same found (ih items found (inItems items found) (free items found))
    · next absent => exact .plain same absent

theorem mirrorsProperty_decode (property : IsProperty data) (clear : propertyObstacles data = []) :
    MirrorsProperty data (decodeProperty data) := by
  simp only [propertyObstacles, List.append_eq_nil_iff] at clear
  obtain ⟨expression, name⟩ := clear
  exact ⟨mirrorsExpression_decode property.expression expression,
    requiredText_of_clear property.name name, flagMember_of_shape property.optional,
    flagMember_of_shape property.experimental, flagMember_of_shape property.deprecated⟩

theorem mirrorsDeclaration_decode (declaration : IsDeclaration data)
    (clear : declarationObstacles data = []) :
    MirrorsDeclaration data (decodeDeclaration data) := by
  simp only [declarationObstacles, List.append_eq_nil_iff, and_assoc] at clear
  obtain ⟨expression, id, properties⟩ := clear
  exact ⟨mirrorsExpression_decode declaration.expression expression,
    requiredText_of_clear declaration.id id,
    optionalList_of_clear declaration.properties properties fun _ => mirrorsProperty_decode,
    flagMember_of_shape declaration.experimental, flagMember_of_shape declaration.deprecated⟩

theorem mirrorsEvent_decode (event : IsMessage data) (clear : messageObstacles data = []) :
    MirrorsEvent data (decodeEvent data) := by
  simp only [messageObstacles, List.append_eq_nil_iff, and_assoc] at clear
  obtain ⟨name, description, parameters⟩ := clear
  exact ⟨requiredText_of_clear event.name name, textMember_of_clear event.description description,
    listMember_of_clear event.parameters parameters fun _ => mirrorsProperty_decode,
    flagMember_of_shape event.experimental, flagMember_of_shape event.deprecated⟩

theorem mirrorsCommand_decode (command : IsCommand data) (clear : commandObstacles data = []) :
    MirrorsCommand data (decodeCommand data) := by
  rw [commandObstacles, List.append_eq_nil_iff] at clear
  obtain ⟨message, returns⟩ := clear
  obtain ⟨name, description, parameters, experimental, deprecated⟩ :=
    mirrorsEvent_decode command.toIsMessage message
  exact ⟨name, description, parameters,
    listMember_of_clear command.returns returns fun _ => mirrorsProperty_decode, experimental,
    deprecated⟩

theorem mirrorsDomain_decode (domain : IsDomain data) (clear : domainObstacles data = []) :
    MirrorsDomain data (decodeDomain data) := by
  simp only [domainObstacles, List.append_eq_nil_iff, and_assoc] at clear
  obtain ⟨name, description, types, commands, events⟩ := clear
  exact ⟨requiredText_of_clear domain.name name, textMember_of_clear domain.description description,
    flagMember_of_shape domain.experimental, flagMember_of_shape domain.deprecated,
    listMember_of_clear domain.types types fun _ => mirrorsDeclaration_decode,
    listMember_of_clear domain.commands commands fun _ => mirrorsCommand_decode,
    listMember_of_clear domain.events events fun _ => mirrorsEvent_decode⟩

/-- What has the shape of a document and no obstacles is decoded to a protocol that mirrors it. -/
theorem mirrors_decode (document : IsDocument data) (clear : obstacles data = []) :
    Mirrors data (decode data) := by
  obtain ⟨value, found, items, rfl, domains⟩ := document.domains
  have shape : Member "domains" (IsListOf IsDomain) data := by
    intro other otherFound
    cases found.symm.trans otherFound
    exact ⟨items, rfl, domains⟩
  have read := optionalList_of_clear shape clear fun _ => mirrorsDomain_decode
  refine ⟨rfl, ?_⟩
  rw [listMember?, found] at read
  rw [decode, listMember, listMember?, found]
  exact read

end Parts

end ProtocolGen.Document
