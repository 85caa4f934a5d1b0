import ProtocolGen.Proofs.Document.Decoding

/-!
# References that cannot be read

The one thing that can stand in the way of decoding a document of the right shape whose texts are
strings: a type expression without a reference in the marked spelling, and with one in the other spelling
that is neither a text nor null. Every type expression is looked at, wherever in the document it stands.
-/

set_option autoImplicit false

namespace ProtocolGen

namespace Data

mutual

/-- Whether no text in a value holds a surrogate that stands alone. -/
def surrogateFree : Data → Bool
  | .text points => points.all fun point => point.char?.isSome
  | .set members => allSurrogateFree members
  | .list items => allSurrogateFree items
  | .table entries => entriesSurrogateFree entries
  | _ => true

def allSurrogateFree : List Data → Bool
  | [] => true
  | item :: items => surrogateFree item && allSurrogateFree items

def entriesSurrogateFree : List (Text × Data) → Bool
  | [] => true
  | entry :: entries => entrySurrogateFree entry && entriesSurrogateFree entries

def entrySurrogateFree : Text × Data → Bool
  | (_, value) => surrogateFree value

end

theorem surrogateFree_of_mem {items : List Data} (free : (Data.list items).surrogateFree)
    {item : Data} (member : item ∈ items) : item.surrogateFree := by
  replace free : allSurrogateFree items := free
  induction items with
  | nil => cases member
  | cons first items ih =>
    have free : first.surrogateFree ∧ allSurrogateFree items := Bool.and_eq_true_iff.mp free
    rcases List.mem_cons.mp member with rfl | later
    · exact free.1
    · exact ih later free.2

theorem surrogateFree_of_lookupEntry {entries : List (Text × Data)} {key : Text} {value : Data}
    (free : entriesSurrogateFree entries) (found : lookupEntry key entries = some value) :
    value.surrogateFree := by
  induction entries with
  | nil => cases found
  | cons entry entries ih =>
    obtain ⟨known, first⟩ := entry
    have free : first.surrogateFree ∧ entriesSurrogateFree entries := Bool.and_eq_true_iff.mp free
    rw [lookupEntry] at found
    split at found
    · obtain rfl := Option.some.inj found
      exact free.1
    · exact ih free.2 found

theorem surrogateFree_of_member? {data value : Data} {name : String} (free : data.surrogateFree)
    (found : data.member? name = some value) : value.surrogateFree := by
  cases data with
  | table entries => exact surrogateFree_of_lookupEntry free found
  | _ => cases found

theorem exists_ofString_of_surrogateFree {text : Text} (free : (Data.text text).surrogateFree) :
    ∃ string, text = Text.ofString string := by
  replace free : ∀ point ∈ text, point.char?.isSome := List.all_eq_true.mp free
  suffices chars : ∃ chars, text = Text.ofChars chars by
    obtain ⟨chars, rfl⟩ := chars
    exact ⟨String.ofList chars, by rw [Text.ofString, String.toList_ofList]⟩
  induction text with
  | nil => exact ⟨[], rfl⟩
  | cons point text ih =>
    rw [List.forall_mem_cons] at free
    obtain ⟨chars, rfl⟩ := ih free.2
    cases point with
    | scalar char => exact ⟨char :: chars, rfl⟩
    | surrogate index => cases free.1

end Data

namespace Document

/-- A value stands in the list that is a member. -/
def ItemOf (name : String) (data item : Data) : Prop :=
  ∃ items, data.member? name = some (.list items) ∧ item ∈ items

/-- The outermost type expressions of a document. -/
inductive StandsIn (document : Data) : Data → Prop where
  | declaration {domain declaration : Data} (inDomains : ItemOf "domains" document domain)
      (inTypes : ItemOf "types" domain declaration) : StandsIn document declaration
  | property {domain declaration property : Data} (inDomains : ItemOf "domains" document domain)
      (inTypes : ItemOf "types" domain declaration)
      (inProperties : ItemOf "properties" declaration property) : StandsIn document property
  | parameter {domain command property : Data} (inDomains : ItemOf "domains" document domain)
      (inCommands : ItemOf "commands" domain command)
      (inParameters : ItemOf "parameters" command property) : StandsIn document property
  | returned {domain command property : Data} (inDomains : ItemOf "domains" document domain)
      (inCommands : ItemOf "commands" domain command)
      (inReturns : ItemOf "returns" command property) : StandsIn document property
  | payload {domain event property : Data} (inDomains : ItemOf "domains" document domain)
      (inEvents : ItemOf "events" domain event)
      (inParameters : ItemOf "parameters" event property) : StandsIn document property

/-- A type expression of a document, or the items of one. -/
def ExpressionOf (document expression : Data) : Prop :=
  ∃ outer, StandsIn document outer ∧ Within outer expression

/-- The marked spelling is absent, and the other one is neither a text nor null. -/
def HasUnreadableReference (data : Data) : Prop :=
  data.member? "$ref" = none ∧ ∃ value, data.member? "ref" = some value ∧ value ≠ .null ∧ ¬ IsText value

/-- No reference of an expression or of its items is unreadable. -/
def IsReadable (data : Data) : Prop := ∀ inner, Within data inner → ¬ HasUnreadableReference inner

section Obstacles

variable {data : Data} {name : String}

theorem stringObstacles_of_isText (shape : IsText data) (free : data.surrogateFree) :
    stringObstacles data = [] := by
  obtain ⟨text, rfl⟩ := shape
  obtain ⟨string, rfl⟩ := Data.exists_ofString_of_surrogateFree free
  exact stringObstacles_eq_nil_iff.mpr (.inr ⟨string, rfl⟩)

theorem textMember_clear (shape : Member name IsText data) (free : data.surrogateFree) :
    memberObstacles name stringObstacles data = [] :=
  memberObstacles_eq_nil_iff.mpr fun value found =>
    stringObstacles_of_isText (shape value found) (Data.surrogateFree_of_member? free found)

theorem requiredName_clear (shape : Required name IsName data) (free : data.surrogateFree) :
    memberObstacles name stringObstacles data = [] := by
  refine textMember_clear (fun value found => ?_) free
  obtain ⟨_, same, text, rfl, -⟩ := shape
  cases found.symm.trans same
  exact ⟨text, rfl⟩

/-- The items of a list are looked at one by one. -/
theorem listMember_clear_iff {Meets Holds : Data → Prop} {obstaclesOf : Data → List Obstacle}
    (shape : Member name (IsListOf Meets) data) (free : data.surrogateFree)
    (each : ∀ item, Meets item → item.surrogateFree → (obstaclesOf item = [] ↔ Holds item)) :
    memberObstacles name (listObstacles obstaclesOf) data = [] ↔
      ∀ item, ItemOf name data item → Holds item := by
  rw [memberObstacles_eq_nil_iff]
  constructor
  · rintro clear item ⟨items, found, member⟩
    obtain ⟨_, same, meets⟩ := shape _ found
    cases same
    have freeItem := Data.surrogateFree_of_mem (Data.surrogateFree_of_member? free found) member
    exact (each item (meets item member) freeItem).mp
      (listObstacles_eq_nil_iff.mp (clear _ found) item member)
  · intro holds value found
    obtain ⟨items, rfl, meets⟩ := shape value found
    refine listObstacles_eq_nil_iff.mpr fun item member => ?_
    have freeItem := Data.surrogateFree_of_mem (Data.surrogateFree_of_member? free found) member
    exact (each item (meets item member) freeItem).mpr (holds item ⟨items, found, member⟩)

theorem labels_clear (shape : Member "enum" (IsListOf IsText) data) (free : data.surrogateFree) :
    memberObstacles "enum" (listObstacles stringObstacles) data = [] := by
  have each (item : Data) (text : IsText item) (freeItem : item.surrogateFree) :
      stringObstacles item = [] ↔ True :=
    iff_true_intro (stringObstacles_of_isText text freeItem)
  exact (listMember_clear_iff shape free each).mpr fun _ _ => trivial

theorem reference_clear_iff (shape : Member "$ref" IsName data) (free : data.surrogateFree) :
    memberObstacles (referenceMember data) stringObstacles data = [] ↔
      ¬ HasUnreadableReference data := by
  rw [referenceMember, HasUnreadableReference]
  split
  · next marked =>
    have present : data.member? "$ref" ≠ none := Option.isSome_iff_ne_none.mp marked
    have text : Member "$ref" IsText data := shape.mono fun _ name => name.imp fun _ => And.left
    simp [present, textMember_clear text free]
  · next unmarked =>
    rw [memberObstacles_eq_nil_iff, Option.not_isSome_iff_eq_none.mp unmarked]
    constructor
    · rintro clear ⟨-, value, found, notNull, notText⟩
      rcases stringObstacles_eq_nil_iff.mp (clear value found) with null | ⟨string, text⟩
      · exact notNull null
      · exact notText ⟨_, text⟩
    · intro readable value found
      by_cases text : IsText value
      · exact stringObstacles_of_isText text (Data.surrogateFree_of_member? free found)
      · refine stringObstacles_eq_nil_iff.mpr (.inl ?_)
        by_contra notNull
        exact readable ⟨rfl, value, found, notNull, text⟩

theorem expressionObstacles_eq_nil_iff (expression : IsExpression data) (free : data.surrogateFree) :
    expressionObstacles data = [] ↔ IsReadable data := by
  induction data using items_induction with
  | step data ih =>
    obtain ⟨facets, inItems⟩ := forall_within_iff.mp expression
    have below : Member "items" (fun items => expressionObstacles items = []) data ↔
        Member "items" IsReadable data := by
      refine forall_congr' fun items => imp_congr_right fun found => ?_
      exact ih items found (inItems items found) (Data.surrogateFree_of_member? free found)
    rw [expressionObstacles_eq, IsReadable, forall_within_iff]
    simp only [List.append_eq_nil_iff, textMember_clear facets.description free,
      textMember_clear facets.type free, labels_clear facets.enumeration free,
      reference_clear_iff facets.reference free, memberObstacles_eq_nil_iff, true_and, and_true]
    exact and_congr_right' below

theorem propertyObstacles_eq_nil_iff (property : IsProperty data) (free : data.surrogateFree) :
    propertyObstacles data = [] ↔ IsReadable data := by
  rw [propertyObstacles, List.append_eq_nil_iff, requiredName_clear property.name free,
    expressionObstacles_eq_nil_iff property.expression free]
  exact and_iff_left rfl

theorem declarationObstacles_eq_nil_iff (declaration : IsDeclaration data)
    (free : data.surrogateFree) :
    declarationObstacles data = [] ↔
      IsReadable data ∧ ∀ property, ItemOf "properties" data property → IsReadable property := by
  rw [declarationObstacles, List.append_eq_nil_iff, List.append_eq_nil_iff,
    requiredName_clear declaration.id free, expressionObstacles_eq_nil_iff declaration.expression free,
    listMember_clear_iff declaration.properties free fun _ => propertyObstacles_eq_nil_iff]
  exact and_congr_left' (and_iff_left rfl)

theorem messageObstacles_eq_nil_iff (message : IsMessage data) (free : data.surrogateFree) :
    messageObstacles data = [] ↔
      ∀ property, ItemOf "parameters" data property → IsReadable property := by
  rw [messageObstacles, List.append_eq_nil_iff, List.append_eq_nil_iff,
    requiredName_clear message.name free, textMember_clear message.description free,
    listMember_clear_iff message.parameters free fun _ => propertyObstacles_eq_nil_iff]
  exact and_iff_right ⟨rfl, rfl⟩

theorem commandObstacles_eq_nil_iff (command : IsCommand data) (free : data.surrogateFree) :
    commandObstacles data = [] ↔
      (∀ property, ItemOf "parameters" data property → IsReadable property) ∧
        ∀ property, ItemOf "returns" data property → IsReadable property := by
  rw [commandObstacles, List.append_eq_nil_iff,
    messageObstacles_eq_nil_iff command.toIsMessage free,
    listMember_clear_iff command.returns free fun _ => propertyObstacles_eq_nil_iff]

theorem domainObstacles_eq_nil_iff (domain : IsDomain data) (free : data.surrogateFree) :
    domainObstacles data = [] ↔
      (∀ declaration, ItemOf "types" data declaration →
        IsReadable declaration ∧
          ∀ property, ItemOf "properties" declaration property → IsReadable property) ∧
      (∀ command, ItemOf "commands" data command →
        (∀ property, ItemOf "parameters" command property → IsReadable property) ∧
          ∀ property, ItemOf "returns" command property → IsReadable property) ∧
      ∀ event, ItemOf "events" data event →
        ∀ property, ItemOf "parameters" event property → IsReadable property := by
  simp only [domainObstacles, List.append_eq_nil_iff, and_assoc, true_and,
    requiredName_clear domain.name free, textMember_clear domain.description free,
    listMember_clear_iff domain.types free fun _ => declarationObstacles_eq_nil_iff,
    listMember_clear_iff domain.commands free fun _ => commandObstacles_eq_nil_iff,
    listMember_clear_iff domain.events free fun _ => messageObstacles_eq_nil_iff]

/-- A document of the right shape can be decoded exactly when no reference in it is unreadable. -/
theorem obstacles_eq_nil_iff (document : IsDocument data) (free : data.surrogateFree) :
    obstacles data = [] ↔
      ∀ expression, ExpressionOf data expression → ¬ HasUnreadableReference expression := by
  have shape : Member "domains" (IsListOf IsDomain) data := (required_iff.mpr document.domains).2
  rw [obstacles, listMember_clear_iff shape free fun _ => domainObstacles_eq_nil_iff]
  constructor
  · rintro clear expression ⟨outer, stands, within⟩
    cases stands with
    | declaration inDomains inTypes => exact ((clear _ inDomains).1 _ inTypes).1 _ within
    | property inDomains inTypes inProperties =>
      exact ((clear _ inDomains).1 _ inTypes).2 _ inProperties _ within
    | parameter inDomains inCommands inParameters =>
      exact ((clear _ inDomains).2.1 _ inCommands).1 _ inParameters _ within
    | returned inDomains inCommands inReturns =>
      exact ((clear _ inDomains).2.1 _ inCommands).2 _ inReturns _ within
    | payload inDomains inEvents inParameters =>
      exact (clear _ inDomains).2.2 _ inEvents _ inParameters _ within
  · intro readable domain inDomains
    have outermost {outer : Data} (stands : StandsIn data outer) : IsReadable outer :=
      fun inner within => readable inner ⟨outer, stands, within⟩
    refine ⟨fun declaration inTypes => ⟨?_, fun property inProperties => ?_⟩,
      fun command inCommands => ⟨fun property inParameters => ?_, fun property inReturns => ?_⟩,
      fun event inEvents property inParameters => ?_⟩
    · exact outermost (.declaration inDomains inTypes)
    · exact outermost (.property inDomains inTypes inProperties)
    · exact outermost (.parameter inDomains inCommands inParameters)
    · exact outermost (.returned inDomains inCommands inReturns)
    · exact outermost (.payload inDomains inEvents inParameters)

end Obstacles

end Document

end ProtocolGen
