import ProtocolGen.Proofs.Document.Schema

/-!
# Where faults are

The path of a fault leads to a value in the document, and what the fault complains of holds of that
value. Two paths into one document part in one list or in one table, so the steps that they part in can
be compared, and the faults are listed in the order of their paths.
-/

set_option autoImplicit false

namespace ProtocolGen.Document

/-! ## Places in a document -/

/-- The value that a path leads to. -/
def valueAt? : List Step → Data → Option Data
  | [], data => some data
  | .member name :: path, data => (data.member? name).bind (valueAt? path)
  | .item index :: path, .list items => items[index]?.bind (valueAt? path)
  | .item _ :: _, _ => none

/-- What complaints say of the values that they are about. -/
inductive Complaint.Concerns : Complaint → Data → Prop where
  | notOfKind {kind : Kind} {data : Data} (other : ¬ kind.accepts data) :
      Concerns (.notOfKind data.shown kind) data
  | missing {name : String} {data : Data} (table : IsTable data) (absent : data.member? name = none) :
      Concerns (.missing name) data
  | empty : Concerns (.empty (Data.text []).shown) (.text [])
  | noAlternative {data : Data} (table : IsTable data) (untyped : data.member? "type" = none)
      (unreferring : data.member? "$ref" = none) : Concerns (.noAlternative data.shown) data

/-- Faults that are where their paths lead to. -/
def Located (data : Data) (faults : List Fault) : Prop :=
  ∀ fault ∈ faults, ∃ value, valueAt? fault.path data = some value ∧ fault.complaint.Concerns value

section Locating

variable {data : Data}

theorem located_nil : Located data [] := List.forall_mem_nil _

theorem located_append {faults others : List Fault} :
    Located data (faults ++ others) ↔ Located data faults ∧ Located data others :=
  List.forall_mem_append

/-- A fault of the value itself. -/
theorem located_self {complaint : Complaint} (concerns : complaint.Concerns data) :
    Located data [⟨[], complaint⟩] :=
  List.forall_mem_singleton.mpr ⟨data, rfl, concerns⟩

theorem Located.inside {step : Step} {value : Data} {faults : List Fault}
    (located : Located value faults)
    (leads : ∀ path, valueAt? (step :: path) data = valueAt? path value) :
    Located data (inside step faults) := by
  intro fault member
  obtain ⟨inner, inFaults, rfl⟩ := List.mem_map.mp member
  obtain ⟨found, atPath, concerns⟩ := located inner inFaults
  exact ⟨found, (leads inner.path).trans atPath, concerns⟩

theorem located_kindFaults (kind : Kind) : Located data (kindFaults kind data) := by
  rw [kindFaults]
  split
  · exact located_nil
  · next other => exact located_self (.notOfKind other)

theorem located_requiredFaults (name : String) : Located data (requiredFaults name data) := by
  cases data with
  | table entries =>
    rw [requiredFaults]
    split
    · exact located_nil
    · next absent => exact located_self (.missing ⟨entries, rfl⟩ (by simpa using absent))
  | _ => exact located_nil

theorem located_memberFaults {name : String} {faultsOf : Data → List Fault}
    (inMember : Member name (fun value => Located value (faultsOf value)) data) :
    Located data (memberFaults name faultsOf data) := by
  rw [memberFaults]
  split
  · next value found =>
    refine (inMember value found).inside fun path => ?_
    rw [valueAt?, found, Option.bind_some]
  · exact located_nil

theorem located_itemFaultsFrom {faultsOf : Data → List Fault} (before rest : List Data)
    (inItems : ∀ item ∈ rest, Located item (faultsOf item)) :
    Located (.list (before ++ rest)) (itemFaultsFrom faultsOf before.length rest) := by
  induction rest generalizing before with
  | nil => exact located_nil
  | cons item rest ih =>
    rw [List.forall_mem_cons] at inItems
    rw [itemFaultsFrom, located_append]
    refine ⟨inItems.1.inside fun path => ?_, ?_⟩
    · rw [valueAt?, List.getElem?_append_right (Nat.le_refl _), Nat.sub_self,
        List.getElem?_cons_zero, Option.bind_some]
    · have later := ih (before ++ [item]) inItems.2
      rwa [List.append_assoc, List.singleton_append, List.length_append, List.length_singleton]
        at later

theorem located_listFaults {faultsOf : Data → List Fault}
    (inItems : ∀ item, Located item (faultsOf item)) : Located data (listFaults faultsOf data) := by
  rw [listFaults, located_append]
  refine ⟨located_kindFaults .array, ?_⟩
  cases data with
  | list items => exact located_itemFaultsFrom [] items fun item _ => inItems item
  | _ => exact located_nil

theorem located_textFaults : Located data (textFaults data) := located_kindFaults .string

theorem located_flagFaults : Located data (flagFaults data) := located_kindFaults .boolean

theorem located_nameFaults : Located data (nameFaults data) := by
  rw [nameFaults, located_append]
  refine ⟨located_kindFaults .string, ?_⟩
  unfold emptyFaults
  split
  · exact located_self .empty
  · exact located_nil

theorem located_alternativeFaults : Located data (alternativeFaults data) := by
  cases data with
  | table entries =>
    rw [alternativeFaults]
    split
    · exact located_nil
    · next neither =>
      rw [Bool.or_eq_true, not_or] at neither
      exact located_self (.noAlternative ⟨entries, rfl⟩ (by simpa using neither.1)
        (by simpa using neither.2))
  | _ => exact located_nil

/-! ### Faults of the parts of a protocol -/

/-- The faults of a member are located when those of any value there are. -/
theorem located_member {name : String} {faultsOf : Data → List Fault}
    (located : ∀ value, Located value (faultsOf value)) :
    Located data (memberFaults name faultsOf data) :=
  located_memberFaults fun value _ => located value

theorem located_expressionFaults : Located data (expressionFaults data) := by
  induction data using items_induction with
  | step data ih =>
    rw [expressionFaults_eq]
    simp only [located_append, and_assoc]
    exact ⟨located_kindFaults _, located_member fun _ => located_textFaults,
      located_member fun _ => located_textFaults, located_member fun _ => located_nameFaults,
      located_memberFaults ih, located_member fun _ => located_listFaults fun _ => located_textFaults,
      located_alternativeFaults⟩

theorem located_stateFaults : Located data (stateFaults data) := by
  rw [stateFaults, located_append]
  exact ⟨located_member fun _ => located_flagFaults, located_member fun _ => located_flagFaults⟩

theorem located_propertyFaults : Located data (propertyFaults data) := by
  simp only [propertyFaults, located_append, and_assoc]
  exact ⟨located_expressionFaults, located_kindFaults _, located_requiredFaults _,
    located_member fun _ => located_nameFaults, located_member fun _ => located_flagFaults,
    located_stateFaults⟩

theorem located_propertiesFaults : Located data (propertiesFaults data) :=
  located_listFaults fun _ => located_propertyFaults

theorem located_declarationFaults : Located data (declarationFaults data) := by
  simp only [declarationFaults, located_append, and_assoc]
  exact ⟨located_expressionFaults, located_kindFaults _, located_requiredFaults _,
    located_member fun _ => located_nameFaults, located_member fun _ => located_propertiesFaults,
    located_stateFaults⟩

theorem located_eventFaults : Located data (eventFaults data) := by
  simp only [eventFaults, located_append, and_assoc]
  exact ⟨located_kindFaults _, located_requiredFaults _, located_member fun _ => located_nameFaults,
    located_member fun _ => located_textFaults, located_member fun _ => located_propertiesFaults,
    located_stateFaults⟩

theorem located_commandFaults : Located data (commandFaults data) := by
  simp only [commandFaults, located_append, and_assoc]
  exact ⟨located_kindFaults _, located_requiredFaults _, located_member fun _ => located_nameFaults,
    located_member fun _ => located_textFaults, located_member fun _ => located_propertiesFaults,
    located_member fun _ => located_propertiesFaults, located_stateFaults⟩

theorem located_domainFaults : Located data (domainFaults data) := by
  simp only [domainFaults, located_append, and_assoc]
  exact ⟨located_kindFaults _, located_requiredFaults _, located_member fun _ => located_nameFaults,
    located_member fun _ => located_textFaults, located_stateFaults,
    located_member fun _ => located_listFaults fun _ => located_declarationFaults,
    located_member fun _ => located_listFaults fun _ => located_commandFaults,
    located_member fun _ => located_listFaults fun _ => located_eventFaults⟩

theorem located_faults : Located data (faults data) := by
  have found : Located data (foundFaults data) := by
    simp only [foundFaults, located_append, and_assoc]
    exact ⟨located_kindFaults _, located_requiredFaults _,
      located_member fun _ => located_kindFaults _,
      located_member fun _ => located_listFaults fun _ => located_domainFaults⟩
  exact fun fault member => found fault (List.mem_mergeSort.mp member)

end Locating

/-! ## The order of paths -/

/-- Different steps from one value: to items of a list or to members of a table. -/
inductive Step.Beside : Step → Step → Prop where
  | items {left right : Nat} (differ : left ≠ right) : Beside (.item left) (.item right)
  | members {left right : String} (differ : left ≠ right) : Beside (.member left) (.member right)

/-- Steps from one value in their order: items by index, members by name. -/
inductive Step.Before : Step → Step → Prop where
  | items {left right : Nat} (less : left < right) : Before (.item left) (.item right)
  | members {left right : String} (less : left < right) : Before (.member left) (.member right)

/-- Two paths that have a start in common and go on with the given steps. -/
def PartWith (first second : Step) (left right : List Step) : Prop :=
  ∃ common, common ++ [first] <+: left ∧ common ++ [second] <+: right

/-- One path is a start of the other, or they part in one list or in one table. -/
def Comparable (left right : List Step) : Prop :=
  left <+: right ∨ right <+: left ∨
    ∃ first second, PartWith first second left right ∧ first.Beside second

/-- One path is a start of the other, or they part in one list or in one table and it takes the step
that comes first. -/
def Precedes (left right : List Step) : Prop :=
  left <+: right ∨ ∃ first second, PartWith first second left right ∧ first.Before second

theorem Step.Before.beside {first second : Step} (before : first.Before second) :
    first.Beside second := by
  cases before with
  | items less => exact .items (Nat.ne_of_lt less)
  | members less => exact .members (String.ne_of_lt less)

theorem Step.Beside.symm {first second : Step} (beside : first.Beside second) :
    second.Beside first := by
  cases beside with
  | items differ => exact .items differ.symm
  | members differ => exact .members differ.symm

theorem Precedes.comparable {left right : List Step} (precedes : Precedes left right) :
    Comparable left right := by
  rcases precedes with starts | ⟨first, second, part, before⟩
  · exact .inl starts
  · exact .inr (.inr ⟨first, second, part, before.beside⟩)

theorem Comparable.symm {left right : List Step} (comparable : Comparable left right) :
    Comparable right left := by
  rcases comparable with starts | starts | ⟨first, second, ⟨common, inLeft, inRight⟩, beside⟩
  · exact .inr (.inl starts)
  · exact .inl starts
  · exact .inr (.inr ⟨second, first, ⟨common, inRight, inLeft⟩, beside.symm⟩)

theorem Precedes.cons {left right : List Step} (step : Step) (precedes : Precedes left right) :
    Precedes (step :: left) (step :: right) := by
  rcases precedes with starts | ⟨first, second, ⟨common, inLeft, inRight⟩, before⟩
  · exact .inl (List.cons_prefix_cons.mpr ⟨rfl, starts⟩)
  · exact .inr ⟨first, second, ⟨step :: common, List.cons_prefix_cons.mpr ⟨rfl, inLeft⟩,
      List.cons_prefix_cons.mpr ⟨rfl, inRight⟩⟩, before⟩

section Paths

variable {data : Data} {left right : List Step}

theorem isTable_of_valueAt? {name : String}
    (found : (valueAt? (.member name :: left) data).isSome) : IsTable data := by
  cases data with
  | table entries => exact ⟨entries, rfl⟩
  | _ => cases found

theorem isList_of_valueAt? {index : Nat} (found : (valueAt? (.item index :: left) data).isSome) :
    ∃ items, data = .list items := by
  cases data with
  | list items => exact ⟨items, rfl⟩
  | _ => cases found

/-- Steps from one value that differ can be compared, since they are of one kind. -/
theorem before_of_atMost {first second : Step}
    (leftFound : (valueAt? (first :: left) data).isSome)
    (rightFound : (valueAt? (second :: right) data).isSome) (differ : first ≠ second)
    (ordered : first.atMost second) : first.Before second := by
  cases first with
  | item index =>
    cases second with
    | item other =>
      have least : index ≤ other := of_decide_eq_true ordered
      exact .items (Nat.lt_of_le_of_ne least fun same => differ (congrArg Step.item same))
    | member name =>
      obtain ⟨items, rfl⟩ := isList_of_valueAt? leftFound
      cases isTable_of_valueAt? rightFound with
      | intro entries same => cases same
  | member name =>
    cases second with
    | item index => cases ordered
    | member other =>
      have least : name ≤ other := of_decide_eq_true ordered
      exact .members (Std.lt_of_le_of_ne least fun same => differ (congrArg Step.member same))

/-- A step that two paths share leads to one value, from which the rests of the paths lead on. -/
theorem exists_valueAt?_of_cons {step : Step} (leftFound : (valueAt? (step :: left) data).isSome)
    (rightFound : (valueAt? (step :: right) data).isSome) :
    ∃ value, (valueAt? left value).isSome ∧ (valueAt? right value).isSome := by
  have shared {next : Option Data} (leftFound : (next.bind (valueAt? left)).isSome)
      (rightFound : (next.bind (valueAt? right)).isSome) :
      ∃ value, (valueAt? left value).isSome ∧ (valueAt? right value).isSome := by
    cases next with
    | none => cases leftFound
    | some value => exact ⟨value, leftFound, rightFound⟩
  cases step with
  | member name => exact shared leftFound rightFound
  | item index =>
    obtain ⟨items, rfl⟩ := isList_of_valueAt? leftFound
    exact shared leftFound rightFound

theorem pathAtMost_cons {first second : Step} :
    pathAtMost (first :: left) (second :: right) =
      if first = second then pathAtMost left right else first.atMost second := rfl

/-- Paths into one document that are in order part in steps that can be compared. -/
theorem precedes_of_pathAtMost (leftFound : (valueAt? left data).isSome)
    (rightFound : (valueAt? right data).isSome) (ordered : pathAtMost left right) :
    Precedes left right := by
  induction left generalizing right data with
  | nil => exact .inl List.nil_prefix
  | cons first left ih =>
    cases right with
    | nil => cases ordered
    | cons second right =>
      rw [pathAtMost_cons] at ordered
      split at ordered
      · next same =>
        subst same
        obtain ⟨value, leftRest, rightRest⟩ := exists_valueAt?_of_cons leftFound rightFound
        exact (ih leftRest rightRest ordered).cons first
      · next differ =>
        have before := before_of_atMost leftFound rightFound differ ordered
        exact .inr ⟨first, second, ⟨[], List.prefix_append _ _, List.prefix_append _ _⟩, before⟩

end Paths

theorem Step.atMost_item_iff {first second : Nat} :
    (Step.item first).atMost (.item second) ↔ first ≤ second := decide_eq_true_iff

theorem Step.atMost_member_iff {first second : String} :
    (Step.member first).atMost (.member second) ↔ first ≤ second := decide_eq_true_iff

theorem Step.atMost_total (first second : Step) : first.atMost second || second.atMost first := by
  cases first with
  | item first =>
    cases second with
    | item second => simp [Step.atMost_item_iff, Nat.le_total]
    | member second => rfl
  | member first =>
    cases second with
    | item second => rfl
    | member second => simp [Step.atMost_member_iff, String.le_total]

theorem Step.atMost_trans {first second third : Step} (lower : first.atMost second)
    (upper : second.atMost third) : first.atMost third := by
  cases first with
  | item first =>
    cases second with
    | item second =>
      cases third with
      | item third =>
        rw [Step.atMost_item_iff] at lower upper ⊢
        exact Nat.le_trans lower upper
      | member third => rfl
    | member second =>
      cases third with
      | item third => cases upper
      | member third => rfl
  | member first =>
    cases second with
    | item second => cases lower
    | member second =>
      cases third with
      | item third => cases upper
      | member third =>
        rw [Step.atMost_member_iff] at lower upper ⊢
        exact String.le_trans lower upper

theorem Step.atMost_antisymm {first second : Step} (lower : first.atMost second)
    (upper : second.atMost first) : first = second := by
  cases first with
  | item first =>
    cases second with
    | item second =>
      rw [Step.atMost_item_iff] at lower upper
      rw [Nat.le_antisymm lower upper]
    | member second => cases upper
  | member first =>
    cases second with
    | item second => cases lower
    | member second =>
      rw [Step.atMost_member_iff] at lower upper
      rw [String.le_antisymm lower upper]

theorem pathAtMost_total (left right : List Step) :
    pathAtMost left right || pathAtMost right left := by
  induction left generalizing right with
  | nil => rfl
  | cons first left ih =>
    cases right with
    | nil => rfl
    | cons second right =>
      rw [pathAtMost_cons, pathAtMost_cons]
      by_cases same : first = second
      · rw [if_pos same, if_pos same.symm]
        exact ih right
      · rw [if_neg same, if_neg (Ne.symm same)]
        exact Step.atMost_total first second

theorem pathAtMost_trans {left middle right : List Step} (lower : pathAtMost left middle)
    (upper : pathAtMost middle right) : pathAtMost left right := by
  induction left generalizing middle right with
  | nil => rfl
  | cons first left ih =>
    cases middle with
    | nil => cases lower
    | cons second middle =>
      cases right with
      | nil => cases upper
      | cons third right =>
        rw [pathAtMost_cons] at lower upper ⊢
        by_cases same : first = second
        · subst same
          rw [if_pos rfl] at lower
          split at upper
          · next same => exact (if_pos same).trans (ih lower upper)
          · next differ => exact (if_neg differ).trans upper
        · rw [if_neg same] at lower
          by_cases last : second = third
          · subst last
            exact (if_neg same).trans lower
          · rw [if_neg last] at upper
            have differ : first ≠ third := by
              rintro rfl
              exact same (Step.atMost_antisymm lower upper)
            exact (if_neg differ).trans (Step.atMost_trans lower upper)

/-! ## The list of faults -/

theorem isSome_valueAt?_of_mem {data : Data} {fault : Fault} (member : fault ∈ faults data) :
    (valueAt? fault.path data).isSome := by
  obtain ⟨value, found, -⟩ := located_faults fault member
  rw [found, Option.isSome_some]

theorem sorted_faults (data : Data) :
    (faults data).Pairwise fun left right => pathAtMost left.path right.path := by
  apply List.pairwise_mergeSort
  · exact fun _ _ _ => pathAtMost_trans
  · exact fun left right => pathAtMost_total left.path right.path

theorem pairwise_faults (data : Data) :
    (faults data).Pairwise fun left right => Precedes left.path right.path := by
  refine (sorted_faults data).imp_of_mem fun inLeft inRight ordered => ?_
  exact precedes_of_pathAtMost (isSome_valueAt?_of_mem inLeft) (isSome_valueAt?_of_mem inRight) ordered

theorem comparable_faults {data : Data} {left right : Fault} (inLeft : left ∈ faults data)
    (inRight : right ∈ faults data) : Comparable left.path right.path := by
  have leftFound := isSome_valueAt?_of_mem inLeft
  have rightFound := isSome_valueAt?_of_mem inRight
  rcases Bool.or_eq_true_iff.mp (pathAtMost_total left.path right.path) with ordered | ordered
  · exact (precedes_of_pathAtMost leftFound rightFound ordered).comparable
  · exact (precedes_of_pathAtMost rightFound leftFound ordered).comparable.symm

/-- A value is without faults exactly when it has the shape of a document, which is what the keywords of
the schema ask. Each fault is where its path leads to, any two paths part where they can be compared if
neither is a start of the other, and the lines are those of the faults in the order of their paths. -/
theorem faults_follow_schema (data : Data) :
    (faultLines data = [] ↔ IsDocument data) ∧
    (IsDocument data ↔ protocolSchema.Accepts data) ∧
    (∀ fault ∈ faults data,
      ∃ value, valueAt? fault.path data = some value ∧ fault.complaint.Concerns value) ∧
    (∀ left ∈ faults data, ∀ right ∈ faults data, Comparable left.path right.path) ∧
    faultLines data = (faults data).map Fault.line ∧
    (faults data).Pairwise fun left right => Precedes left.path right.path := by
  refine ⟨faultLines_eq_nil_iff, accepts_protocolSchema_iff.symm, located_faults, ?_, rfl,
    pairwise_faults data⟩
  exact fun left inLeft right inRight => comparable_faults inLeft inRight

/-- A document with a type whose items have no type, as it has none itself, and a domain without name. -/
def gongDocument : Data :=
  .table [(Text.ofString "domains", .list [
    .table [(Text.ofString "domain", .text (Text.ofString "Gong")),
      (Text.ofString "types", .list [
        .table [(Text.ofString "id", .text (Text.ofString "Rim")),
          (Text.ofString "items", .table [])]])],
    .table []])]

def rimPath : List Step := [.member "domains", .item 0, .member "types", .item 0]

def rimFault : Fault := ⟨rimPath, .noAlternative "\x7b'id': 'Rim', 'items': \x7b\x7d\x7d"⟩

def rimItemsFault : Fault := ⟨rimPath ++ [.member "items"], .noAlternative "\x7b\x7d"⟩

def namelessFault : Fault := ⟨[.member "domains", .item 1], .missing "domain"⟩

theorem gong_faults_are_located :
    faults gongDocument = [rimFault, rimItemsFault, namelessFault] ∧
      (∃ value, valueAt? rimItemsFault.path gongDocument = some value ∧
        rimItemsFault.complaint.Concerns value) ∧
      Comparable namelessFault.path rimItemsFault.path ∧
      Precedes rimFault.path rimItemsFault.path := by
  have found : foundFaults gongDocument = [rimItemsFault, rimFault, namelessFault] := by
    decide +kernel
  have same : (faults gongDocument).Perm [rimFault, rimItemsFault, namelessFault] := by
    rw [faults, found]
    exact (List.mergeSort_perm _ _).trans (List.Perm.swap _ _ _)
  have distinct : ∀ left ∈ [rimFault, rimItemsFault, namelessFault],
      ∀ right ∈ [rimFault, rimItemsFault, namelessFault],
        pathAtMost left.path right.path → pathAtMost right.path left.path → left = right := by
    decide
  have listed : faults gongDocument = [rimFault, rimItemsFault, namelessFault] :=
    same.eq_of_pairwise (fun left right inLeft => distinct left (same.mem_iff.mp inLeft) right)
      (sorted_faults gongDocument) (by decide)
  obtain ⟨-, -, located, comparable, -, ordered⟩ := faults_follow_schema gongDocument
  rw [listed] at located comparable ordered
  have inItems : rimItemsFault ∈ [rimFault, rimItemsFault, namelessFault] := by simp
  exact ⟨listed, located _ inItems, comparable _ (by simp) _ inItems,
    List.rel_of_pairwise_cons ordered (by simp)⟩

end ProtocolGen.Document
