import Mathlib.Logic.Relation
import ProtocolGen.Document.Shape

/-!
# Documents of the right shape

What a document without faults looks like: tables, lists, texts and flags where a protocol has them,
with the members that it must have, and type expressions whose items are type expressions again. A
document has no fault exactly when it has this shape.
-/

set_option autoImplicit false

namespace ProtocolGen.Document

/-! ## Requirements on values and members -/

def IsTable (data : Data) : Prop := ∃ entries, data = .table entries

def IsText (data : Data) : Prop := ∃ text, data = .text text

def IsName (data : Data) : Prop := ∃ text, data = .text text ∧ text ≠ []

def IsFlag (data : Data) : Prop := ∃ value, data = .boolean value

def IsListOf (Meets : Data → Prop) (data : Data) : Prop :=
  ∃ items, data = .list items ∧ ∀ item ∈ items, Meets item

/-- A member meets a requirement where it is present. -/
def Member (name : String) (Meets : Data → Prop) (data : Data) : Prop :=
  ∀ value, data.member? name = some value → Meets value

/-- A member is present and meets a requirement. -/
def Required (name : String) (Meets : Data → Prop) (data : Data) : Prop :=
  ∃ value, data.member? name = some value ∧ Meets value

theorem Member.mono {name : String} {Meets Allows : Data → Prop} {data : Data}
    (member : Member name Meets data) (allowed : ∀ value, Meets value → Allows value) :
    Member name Allows data :=
  fun value found => allowed value (member value found)

/-- An expression's items. -/
def ItemsOf (data items : Data) : Prop := data.member? "items" = some items

/-- An expression, or the items of one that is within. -/
def Within : Data → Data → Prop := Relation.ReflTransGen ItemsOf

/-- What holds of all that is within an expression holds of it and of all within its items. -/
theorem forall_within_iff {Holds : Data → Prop} {data : Data} :
    (∀ inner, Within data inner → Holds inner) ↔
      Holds data ∧ Member "items" (fun items => ∀ inner, Within items inner → Holds inner) data := by
  constructor
  · intro holds
    exact ⟨holds data .refl, fun items found inner within => holds inner (.head found within)⟩
  · rintro ⟨holds, inItems⟩ inner within
    rcases within.cases_head with rfl | ⟨items, found, below⟩
    · exact holds
    · exact inItems items found inner below

/-- Expressions are finite: what holds of one when it holds of its items holds of all. -/
theorem items_induction {Holds : Data → Prop}
    (step : ∀ data, Member "items" Holds data → Holds data) (data : Data) : Holds data :=
  step data fun items _found => items_induction step items
termination_by sizeOf data
decreasing_by exact Data.sizeOf_member?_lt _found

/-! ## Shapes of the parts of a protocol -/

structure HasFacets (data : Data) : Prop where
  table : IsTable data
  description : Member "description" IsText data
  type : Member "type" IsText data
  reference : Member "$ref" IsName data
  enumeration : Member "enum" (IsListOf IsText) data
  alternative : (data.member? "type").isSome ∨ (data.member? "$ref").isSome

def IsExpression (data : Data) : Prop := ∀ inner, Within data inner → HasFacets inner

/-- The flags that every part of a protocol may have. -/
structure HasState (data : Data) : Prop where
  experimental : Member "experimental" IsFlag data
  deprecated : Member "deprecated" IsFlag data

structure IsProperty (data : Data) : Prop extends HasState data where
  expression : IsExpression data
  name : Required "name" IsName data
  optional : Member "optional" IsFlag data

structure IsDeclaration (data : Data) : Prop extends HasState data where
  expression : IsExpression data
  id : Required "id" IsName data
  properties : Member "properties" (IsListOf IsProperty) data

/-- An event, or a command apart from what it returns. -/
structure IsMessage (data : Data) : Prop extends HasState data where
  table : IsTable data
  name : Required "name" IsName data
  description : Member "description" IsText data
  parameters : Member "parameters" (IsListOf IsProperty) data

structure IsCommand (data : Data) : Prop extends IsMessage data where
  returns : Member "returns" (IsListOf IsProperty) data

structure IsDomain (data : Data) : Prop extends HasState data where
  table : IsTable data
  name : Required "domain" IsName data
  description : Member "description" IsText data
  types : Member "types" (IsListOf IsDeclaration) data
  commands : Member "commands" (IsListOf IsCommand) data
  events : Member "events" (IsListOf IsMessage) data

structure IsDocument (data : Data) : Prop where
  table : IsTable data
  version : Member "version" IsTable data
  domains : Required "domains" (IsListOf IsDomain) data

/-! ## Values without faults -/

section Values

variable {data : Data}

attribute [local simp] Kind.accepts

theorem inside_eq_nil_iff {step : Step} {faults : List Fault} : inside step faults = [] ↔ faults = [] :=
  List.map_eq_nil_iff

theorem kindFaults_eq_nil_iff {kind : Kind} : kindFaults kind data = [] ↔ kind.accepts data := by
  rw [kindFaults]
  split <;> simp_all

@[simp] theorem objectFaults_eq_nil_iff : kindFaults .object data = [] ↔ IsTable data := by
  rw [kindFaults_eq_nil_iff]
  cases data <;> simp [IsTable]

@[simp] theorem textFaults_eq_nil_iff : textFaults data = [] ↔ IsText data := by
  rw [textFaults, kindFaults_eq_nil_iff]
  cases data <;> simp [IsText]

@[simp] theorem flagFaults_eq_nil_iff : flagFaults data = [] ↔ IsFlag data := by
  rw [flagFaults, kindFaults_eq_nil_iff]
  cases data <;> simp [IsFlag]

@[simp] theorem nameFaults_eq_nil_iff : nameFaults data = [] ↔ IsName data := by
  rw [nameFaults, List.append_eq_nil_iff, kindFaults_eq_nil_iff]
  cases data with
  | text text => cases text <;> simp [emptyFaults, IsName]
  | _ => simp [IsName]

theorem itemFaultsFrom_eq_nil_iff {faultsOf : Data → List Fault} {index : Nat} {items : List Data} :
    itemFaultsFrom faultsOf index items = [] ↔ ∀ item ∈ items, faultsOf item = [] := by
  induction items generalizing index with
  | nil => simp [itemFaultsFrom]
  | cons item items ih =>
    rw [itemFaultsFrom, List.append_eq_nil_iff, inside_eq_nil_iff, ih, List.forall_mem_cons]

@[simp] theorem listFaults_eq_nil_iff {faultsOf : Data → List Fault} :
    listFaults faultsOf data = [] ↔ IsListOf (fun item => faultsOf item = []) data := by
  rw [listFaults, List.append_eq_nil_iff, kindFaults_eq_nil_iff]
  cases data <;> simp [itemFaults, itemFaultsFrom_eq_nil_iff, IsListOf]

@[simp] theorem memberFaults_eq_nil_iff {name : String} {faultsOf : Data → List Fault} :
    memberFaults name faultsOf data = [] ↔ Member name (fun value => faultsOf value = []) data := by
  rw [memberFaults, Member]
  split
  · next value found => simp [found, inside_eq_nil_iff]
  · next absent => simp [absent]

theorem requiredFaults_eq_nil_iff {name : String} (table : IsTable data) :
    requiredFaults name data = [] ↔ (data.member? name).isSome := by
  obtain ⟨entries, rfl⟩ := table
  rw [requiredFaults]
  split <;> simp_all

/-- A member is required and then looked at. -/
theorem required_iff {name : String} {Meets : Data → Prop} :
    (data.member? name).isSome ∧ Member name Meets data ↔ Required name Meets data := by
  cases found : data.member? name <;> simp [Member, Required, found]

theorem alternativeFaults_eq_nil_iff (table : IsTable data) :
    alternativeFaults data = [] ↔
      ((data.member? "type").isSome ∨ (data.member? "$ref").isSome) := by
  obtain ⟨entries, rfl⟩ := table
  rw [alternativeFaults]
  split <;> simp_all

end Values

/-! ## Parts without faults -/

section Parts

variable {data : Data}

theorem expressionFaults_eq (data : Data) :
    expressionFaults data =
      kindFaults .object data ++ memberFaults "description" textFaults data ++
        memberFaults "type" textFaults data ++ memberFaults "$ref" nameFaults data ++
        memberFaults "items" expressionFaults data ++
        memberFaults "enum" (listFaults textFaults) data ++ alternativeFaults data := by
  rw [expressionFaults, memberFaults.eq_1 "items"]
  split <;> simp_all

@[simp] theorem expressionFaults_eq_nil_iff : expressionFaults data = [] ↔ IsExpression data := by
  induction data using items_induction with
  | step data ih =>
    have inItems : Member "items" (fun items => expressionFaults items = []) data ↔
        Member "items" IsExpression data :=
      ⟨fun holds value found => (ih value found).mp (holds value found),
        fun holds value found => (ih value found).mpr (holds value found)⟩
    rw [expressionFaults_eq, IsExpression, forall_within_iff]
    simp only [List.append_eq_nil_iff, and_assoc, objectFaults_eq_nil_iff, memberFaults_eq_nil_iff,
      textFaults_eq_nil_iff, nameFaults_eq_nil_iff, listFaults_eq_nil_iff, inItems]
    constructor
    · rintro ⟨table, description, type, reference, items, enumeration, alternative⟩
      exact ⟨⟨table, description, type, reference, enumeration,
        (alternativeFaults_eq_nil_iff table).mp alternative⟩, items⟩
    · rintro ⟨⟨table, description, type, reference, enumeration, alternative⟩, items⟩
      exact ⟨table, description, type, reference, items, enumeration,
        (alternativeFaults_eq_nil_iff table).mpr alternative⟩

theorem IsExpression.facets (expression : IsExpression data) : HasFacets data :=
  expression data .refl

@[simp] theorem stateFaults_eq_nil_iff : stateFaults data = [] ↔ HasState data := by
  simp only [stateFaults, List.append_eq_nil_iff, memberFaults_eq_nil_iff, flagFaults_eq_nil_iff]
  exact ⟨fun ⟨experimental, deprecated⟩ => ⟨experimental, deprecated⟩,
    fun ⟨experimental, deprecated⟩ => ⟨experimental, deprecated⟩⟩

/-- A name that a table must have is checked to be there and to be a name. -/
theorem requiredName_iff {name : String} (table : IsTable data) :
    requiredFaults name data = [] ∧ Member name IsName data ↔ Required name IsName data := by
  rw [requiredFaults_eq_nil_iff table, required_iff]

@[simp] theorem propertyFaults_eq_nil_iff : propertyFaults data = [] ↔ IsProperty data := by
  simp only [propertyFaults, List.append_eq_nil_iff, and_assoc, expressionFaults_eq_nil_iff,
    objectFaults_eq_nil_iff, memberFaults_eq_nil_iff, nameFaults_eq_nil_iff, flagFaults_eq_nil_iff,
    stateFaults_eq_nil_iff]
  constructor
  · rintro ⟨expression, table, required, name, optional, state⟩
    exact ⟨state, expression, (requiredName_iff table).mp ⟨required, name⟩, optional⟩
  · rintro ⟨state, expression, name, optional⟩
    obtain ⟨required, name⟩ := (requiredName_iff expression.facets.table).mpr name
    exact ⟨expression, expression.facets.table, required, name, optional, state⟩

@[simp] theorem propertiesFaults_eq_nil_iff :
    propertiesFaults data = [] ↔ IsListOf IsProperty data := by
  simp only [propertiesFaults, listFaults_eq_nil_iff, propertyFaults_eq_nil_iff]

@[simp] theorem declarationFaults_eq_nil_iff :
    declarationFaults data = [] ↔ IsDeclaration data := by
  simp only [declarationFaults, List.append_eq_nil_iff, and_assoc, expressionFaults_eq_nil_iff,
    objectFaults_eq_nil_iff, memberFaults_eq_nil_iff, nameFaults_eq_nil_iff,
    propertiesFaults_eq_nil_iff, stateFaults_eq_nil_iff]
  constructor
  · rintro ⟨expression, table, required, id, properties, state⟩
    exact ⟨state, expression, (requiredName_iff table).mp ⟨required, id⟩, properties⟩
  · rintro ⟨state, expression, id, properties⟩
    obtain ⟨required, id⟩ := (requiredName_iff expression.facets.table).mpr id
    exact ⟨expression, expression.facets.table, required, id, properties, state⟩

@[simp] theorem eventFaults_eq_nil_iff : eventFaults data = [] ↔ IsMessage data := by
  simp only [eventFaults, List.append_eq_nil_iff, and_assoc, objectFaults_eq_nil_iff,
    memberFaults_eq_nil_iff, nameFaults_eq_nil_iff, textFaults_eq_nil_iff,
    propertiesFaults_eq_nil_iff, stateFaults_eq_nil_iff]
  constructor
  · rintro ⟨table, required, name, description, parameters, state⟩
    exact ⟨state, table, (requiredName_iff table).mp ⟨required, name⟩, description, parameters⟩
  · rintro ⟨state, table, name, description, parameters⟩
    obtain ⟨required, name⟩ := (requiredName_iff table).mpr name
    exact ⟨table, required, name, description, parameters, state⟩

/-- A command is looked at as an event is, and what it returns as well. -/
@[simp] theorem commandFaults_eq_nil_iff : commandFaults data = [] ↔ IsCommand data := by
  have message : commandFaults data = [] ↔
      eventFaults data = [] ∧ memberFaults "returns" propertiesFaults data = [] := by
    simp only [commandFaults, eventFaults, List.append_eq_nil_iff, and_assoc]
    exact and_congr_right' <| and_congr_right' <| and_congr_right' <| and_congr_right' <|
      and_congr_right' and_comm
  rw [message, eventFaults_eq_nil_iff, memberFaults_eq_nil_iff]
  simp only [propertiesFaults_eq_nil_iff]
  exact ⟨fun ⟨message, returns⟩ => ⟨message, returns⟩, fun ⟨message, returns⟩ => ⟨message, returns⟩⟩

@[simp] theorem domainFaults_eq_nil_iff : domainFaults data = [] ↔ IsDomain data := by
  simp only [domainFaults, List.append_eq_nil_iff, and_assoc, objectFaults_eq_nil_iff,
    memberFaults_eq_nil_iff, nameFaults_eq_nil_iff, textFaults_eq_nil_iff, listFaults_eq_nil_iff,
    declarationFaults_eq_nil_iff, commandFaults_eq_nil_iff, eventFaults_eq_nil_iff,
    stateFaults_eq_nil_iff]
  constructor
  · rintro ⟨table, required, name, description, state, types, commands, events⟩
    exact ⟨state, table, (requiredName_iff table).mp ⟨required, name⟩, description, types, commands,
      events⟩
  · rintro ⟨state, table, name, description, types, commands, events⟩
    obtain ⟨required, name⟩ := (requiredName_iff table).mpr name
    exact ⟨table, required, name, description, state, types, commands, events⟩

theorem foundFaults_eq_nil_iff : foundFaults data = [] ↔ IsDocument data := by
  simp only [foundFaults, List.append_eq_nil_iff, and_assoc, objectFaults_eq_nil_iff,
    memberFaults_eq_nil_iff, listFaults_eq_nil_iff, domainFaults_eq_nil_iff]
  constructor
  · rintro ⟨table, required, version, domains⟩
    rw [requiredFaults_eq_nil_iff table] at required
    exact ⟨table, version, required_iff.mp ⟨required, domains⟩⟩
  · rintro ⟨table, version, domains⟩
    obtain ⟨required, domains⟩ := required_iff.mpr domains
    exact ⟨table, (requiredFaults_eq_nil_iff table).mpr required, version, domains⟩

/-- The documents without faults are those of the right shape. -/
theorem faultLines_eq_nil_iff : faultLines data = [] ↔ IsDocument data := by
  rw [faultLines, List.map_eq_nil_iff, faults, ← List.length_eq_zero_iff, List.length_mergeSort,
    List.length_eq_zero_iff, foundFaults_eq_nil_iff]

end Parts

end ProtocolGen.Document
