import ProtocolGen.Proofs.Document.Decoding

/-!
# Members that count

The parts of a document have members that count, and any other member may be left out. Without the
others a document has the same faults at the same paths, except that a fault may show a value, and shows
it as it then is; and a document without faults is parsed to the same result.
-/

set_option autoImplicit false

namespace ProtocolGen.Document

/-! ## Documents with nothing but known members -/

inductive Part where
  | document
  | domain
  | declaration
  | command
  | event
  | property
  | expression
  deriving DecidableEq, Repr

/-- What a value is looked at as: as it is, as a part of a protocol, or as a list of parts. -/
inductive Place where
  | whole
  | part (part : Part)
  | parts (part : Part)
  deriving DecidableEq, Repr

def expressionMembers : List (String × Place) :=
  [("description", .whole), ("type", .whole), ("$ref", .whole), ("ref", .whole),
    ("items", .part .expression), ("enum", .whole)]

def stateMembers : List (String × Place) := [("experimental", .whole), ("deprecated", .whole)]

def messageMembers : List (String × Place) :=
  [("name", .whole), ("description", .whole), ("parameters", .parts .property)] ++ stateMembers

/-- The members that count, and what the value of each is looked at as. -/
def Part.members : Part → List (String × Place)
  | .document => [("version", .whole), ("domains", .parts .domain)]
  | .domain =>
    [("domain", .whole), ("description", .whole), ("types", .parts .declaration),
      ("commands", .parts .command), ("events", .parts .event)] ++ stateMembers
  | .declaration =>
    expressionMembers ++ [("id", .whole), ("properties", .parts .property)] ++ stateMembers
  | .command => messageMembers ++ [("returns", .parts .property)]
  | .event => messageMembers
  | .property => expressionMembers ++ [("name", .whole), ("optional", .whole)] ++ stateMembers
  | .expression => expressionMembers

def Part.placeOf? (part : Part) (key : Text) : Option Place :=
  (part.members.find? fun member => Text.ofString member.1 = key).map Prod.snd

def Part.place? (part : Part) (name : String) : Option Place := part.placeOf? (Text.ofString name)

theorem Part.place?_eq_find? (part : Part) (name : String) :
    part.place? name = (part.members.find? fun member => member.1 = name).map Prod.snd := by
  simp only [place?, placeOf?, Text.ofString_inj]

-- Whether a member counts is decided on its name, since the code points of names are slow to compare.
instance (part : Part) (name : String) (place : Place) : Decidable (part.place? name = some place) :=
  decidable_of_iff ((part.members.find? fun member => member.1 = name).map Prod.snd = some place)
    (by rw [part.place?_eq_find?])

instance (part : Part) (name : String) : Decidable (part.place? name).isSome :=
  decidable_of_iff ((part.members.find? fun member => member.1 = name).map Prod.snd).isSome
    (by rw [part.place?_eq_find?])

mutual

/-- A value without the members that do not count, at any depth. -/
def known : Place → Data → Data
  | .part part, .table entries => .table (knownEntries part entries)
  | .parts part, .list items => .list (knownItems part items)
  | _, data => data

def knownItems (part : Part) : List Data → List Data
  | [] => []
  | item :: items => known (.part part) item :: knownItems part items

def knownEntries (part : Part) : List (Text × Data) → List (Text × Data)
  | [] => []
  | entry :: entries => knownEntry part entry ++ knownEntries part entries

def knownEntry (part : Part) : Text × Data → List (Text × Data)
  | (key, value) =>
    match part.placeOf? key with
    | some place => [(key, known place value)]
    | none => []

end

section Known

variable {part : Part} {place : Place} {name : String}

@[simp] theorem known_whole (data : Data) : known .whole data = data := by cases data <;> rfl

theorem knownItems_eq_map (items : List Data) : knownItems part items = items.map (known (.part part)) := by
  induction items with
  | nil => rfl
  | cons item items ih => rw [knownItems, ih, List.map_cons]

theorem lookupEntry_knownEntries {key : Text} (counts : part.placeOf? key = some place)
    (entries : List (Text × Data)) :
    Data.lookupEntry key (knownEntries part entries) =
      (Data.lookupEntry key entries).map (known place) := by
  induction entries with
  | nil => rfl
  | cons entry entries ih =>
    obtain ⟨other, value⟩ := entry
    rw [knownEntries, knownEntry, Data.lookupEntry]
    by_cases same : other = key
    · subst same
      simp [counts, Data.lookupEntry]
    · rw [if_neg same, ← ih]
      cases part.placeOf? other with
      | none => rfl
      | some otherPlace => simp [Data.lookupEntry, same]

/-- A member that counts is there as it was, without the members that do not count in it. -/
theorem member?_known (counts : part.place? name = some place) (data : Data) :
    (known (.part part) data).member? name = (data.member? name).map (known place) := by
  cases data with
  | table entries =>
    rw [known]
    exact lookupEntry_knownEntries counts entries
  | _ => rfl

theorem accepts_known (kind : Kind) (data : Data) :
    kind.accepts (known place data) = kind.accepts data := by
  cases place <;> cases data <;> simp only [known] <;> cases kind <;> rfl

end Known

/-- The members of a type expression count in a part. -/
def HoldsExpression (part : Part) : Prop :=
  ∀ member ∈ expressionMembers, part.place? member.1 = some member.2

instance (part : Part) : Decidable (HoldsExpression part) :=
  inferInstanceAs (Decidable (∀ member ∈ expressionMembers, part.place? member.1 = some member.2))

theorem HoldsExpression.place? {part : Part} (holds : HoldsExpression part) (name : String)
    (place : Place) (member : (name, place) ∈ expressionMembers) : part.place? name = some place :=
  holds (name, place) member

/-! ## Outlines of faults -/

/-- A complaint without the value that it shows. -/
def Complaint.outline : Complaint → Complaint
  | .notOfKind _ kind => .notOfKind "" kind
  | .missing name => .missing name
  | .empty _ => .empty ""
  | .noAlternative _ => .noAlternative ""

def Fault.outline (fault : Fault) : Fault := { fault with complaint := fault.complaint.outline }

def outlines (faults : List Fault) : List Fault := faults.map Fault.outline

section Outlines

variable {part inner : Part} {place : Place} {name : String} {faultsOf : Data → List Fault}

theorem outlines_append (faults others : List Fault) :
    outlines (faults ++ others) = outlines faults ++ outlines others :=
  List.map_append

theorem outlines_inside (step : Step) (faults : List Fault) :
    outlines (inside step faults) = inside step (outlines faults) := by
  simp only [outlines, inside, List.map_map]
  rfl

theorem outlines_kindFaults (kind : Kind) (place : Place) (data : Data) :
    outlines (kindFaults kind (known place data)) = outlines (kindFaults kind data) := by
  rw [kindFaults, kindFaults, accepts_known]
  split <;> rfl

theorem outlines_memberFaults {data : Data} (counts : part.place? name = some place)
    (same : Member name (fun value =>
      outlines (faultsOf (known place value)) = outlines (faultsOf value)) data) :
    outlines (memberFaults name faultsOf (known (.part part) data)) =
      outlines (memberFaults name faultsOf data) := by
  rw [memberFaults, memberFaults, member?_known counts]
  cases found : data.member? name with
  | none => rfl
  | some value =>
    simp only [Option.map_some, outlines_inside, same value found]

theorem outlines_memberFaults_whole (counts : part.place? name = some .whole) (data : Data) :
    outlines (memberFaults name faultsOf (known (.part part) data)) =
      outlines (memberFaults name faultsOf data) :=
  outlines_memberFaults counts fun value _ => congrArg (outlines ∘ faultsOf) (known_whole value)

theorem outlines_listFaults (same : ∀ item, outlines (faultsOf (known (.part inner) item)) =
      outlines (faultsOf item)) (data : Data) :
    outlines (listFaults faultsOf (known (.parts inner) data)) = outlines (listFaults faultsOf data) := by
  rw [listFaults, listFaults, outlines_append, outlines_append, outlines_kindFaults]
  congr 1
  cases data with
  | list items =>
    rw [known, itemFaults, itemFaults, knownItems_eq_map]
    generalize 0 = index
    induction items generalizing index with
    | nil => rfl
    | cons item items ih =>
      rw [List.map_cons, itemFaultsFrom, itemFaultsFrom, outlines_append, outlines_append,
        outlines_inside, outlines_inside, same, ih]
  | _ => rfl

/-- The parts in a list that is a member have the outlines that they had. -/
theorem outlines_memberFaults_list (counts : part.place? name = some (.parts inner))
    (same : ∀ item, outlines (faultsOf (known (.part inner) item)) = outlines (faultsOf item))
    (data : Data) :
    outlines (memberFaults name (listFaults faultsOf) (known (.part part) data)) =
      outlines (memberFaults name (listFaults faultsOf) data) :=
  outlines_memberFaults counts fun value _ => outlines_listFaults same value

theorem outlines_requiredFaults (counts : (part.place? name).isSome) (data : Data) :
    outlines (requiredFaults name (known (.part part) data)) = outlines (requiredFaults name data) := by
  obtain ⟨place, counts⟩ := Option.isSome_iff_exists.mp counts
  have found := member?_known counts data
  cases data with
  | table entries =>
    rw [known] at found ⊢
    rw [requiredFaults, requiredFaults, found, Option.isSome_map]
  | _ => rfl

theorem outlines_alternativeFaults (holds : HoldsExpression part) (data : Data) :
    outlines (alternativeFaults (known (.part part) data)) = outlines (alternativeFaults data) := by
  have type := member?_known (holds.place? "type" .whole (by decide)) data
  have reference := member?_known (holds.place? "$ref" .whole (by decide)) data
  cases data with
  | table entries =>
    rw [known] at type reference ⊢
    rw [alternativeFaults, alternativeFaults, type, reference, Option.isSome_map, Option.isSome_map]
    split <;> rfl
  | _ => rfl

theorem outlines_expressionFaults (holds : HoldsExpression part) (data : Data) :
    outlines (expressionFaults (known (.part part) data)) = outlines (expressionFaults data) := by
  induction data using items_induction generalizing part with
  | step data ih =>
    have below : Member "items" (fun items =>
        outlines (expressionFaults (known (.part .expression) items)) =
          outlines (expressionFaults items)) data :=
      fun items found => ih items found (by decide)
    rw [expressionFaults_eq, expressionFaults_eq data]
    simp only [outlines_append, outlines_kindFaults, outlines_alternativeFaults holds,
      outlines_memberFaults_whole (holds.place? "description" .whole (by decide)),
      outlines_memberFaults_whole (holds.place? "type" .whole (by decide)),
      outlines_memberFaults_whole (holds.place? "$ref" .whole (by decide)),
      outlines_memberFaults (holds.place? "items" (.part .expression) (by decide)) below,
      outlines_memberFaults_whole (holds.place? "enum" .whole (by decide))]

theorem outlines_propertyFaults (data : Data) :
    outlines (propertyFaults (known (.part .property) data)) = outlines (propertyFaults data) := by
  simp (disch := decide) only [propertyFaults, stateFaults, outlines_append, outlines_kindFaults,
    outlines_requiredFaults, outlines_expressionFaults, outlines_memberFaults_whole]

theorem outlines_propertiesMember (counts : part.place? name = some (.parts .property))
    (data : Data) :
    outlines (memberFaults name propertiesFaults (known (.part part) data)) =
      outlines (memberFaults name propertiesFaults data) :=
  outlines_memberFaults_list counts outlines_propertyFaults data

theorem outlines_declarationFaults (data : Data) :
    outlines (declarationFaults (known (.part .declaration) data)) =
      outlines (declarationFaults data) := by
  simp (disch := decide) only [declarationFaults, stateFaults, outlines_append, outlines_kindFaults,
    outlines_requiredFaults, outlines_expressionFaults, outlines_memberFaults_whole,
    outlines_propertiesMember]

theorem outlines_commandFaults (data : Data) :
    outlines (commandFaults (known (.part .command) data)) = outlines (commandFaults data) := by
  simp (disch := decide) only [commandFaults, stateFaults, outlines_append, outlines_kindFaults,
    outlines_requiredFaults, outlines_memberFaults_whole, outlines_propertiesMember]

theorem outlines_eventFaults (data : Data) :
    outlines (eventFaults (known (.part .event) data)) = outlines (eventFaults data) := by
  simp (disch := decide) only [eventFaults, stateFaults, outlines_append, outlines_kindFaults,
    outlines_requiredFaults, outlines_memberFaults_whole, outlines_propertiesMember]

theorem outlines_domainFaults (data : Data) :
    outlines (domainFaults (known (.part .domain) data)) = outlines (domainFaults data) := by
  have types := outlines_memberFaults_list
    (show Part.domain.place? "types" = some (.parts .declaration) by decide)
    outlines_declarationFaults data
  have commands := outlines_memberFaults_list
    (show Part.domain.place? "commands" = some (.parts .command) by decide)
    outlines_commandFaults data
  have events := outlines_memberFaults_list
    (show Part.domain.place? "events" = some (.parts .event) by decide) outlines_eventFaults data
  simp (disch := decide) only [domainFaults, stateFaults, outlines_append, outlines_kindFaults,
    outlines_requiredFaults, outlines_memberFaults_whole, types, commands, events]

theorem outlines_foundFaults (data : Data) :
    outlines (foundFaults (known (.part .document) data)) = outlines (foundFaults data) := by
  have domains := outlines_memberFaults_list
    (show Part.document.place? "domains" = some (.parts .domain) by decide)
    outlines_domainFaults data
  simp (disch := decide) only [foundFaults, outlines_append, outlines_kindFaults,
    outlines_requiredFaults, outlines_memberFaults_whole, domains]

/-- A document has the same faults at the same paths, apart from the values that they show. -/
theorem outlines_faults (data : Data) :
    outlines (faults (known (.part .document) data)) = outlines (faults data) := by
  have sorted (found : List Fault) :
      outlines (found.mergeSort fun left right => pathAtMost left.path right.path) =
        (outlines found).mergeSort fun left right => pathAtMost left.path right.path :=
    List.map_mergeSort fun _ _ _ _ => rfl
  rw [faults, faults, sorted, sorted, outlines_foundFaults]

end Outlines

/-! ## What a document is decoded to -/

section Obstacles

variable {part inner : Part} {place : Place} {name : String} {obstaclesOf : Data → List Obstacle}

theorem memberObstacles_known {data : Data} (counts : part.place? name = some place)
    (same : Member name (fun value => obstaclesOf (known place value) = obstaclesOf value) data) :
    memberObstacles name obstaclesOf (known (.part part) data) =
      memberObstacles name obstaclesOf data := by
  rw [memberObstacles, memberObstacles, member?_known counts]
  cases found : data.member? name with
  | none => rfl
  | some value => simp only [Option.map_some, same value found]

theorem memberObstacles_known_whole (counts : part.place? name = some .whole) (data : Data) :
    memberObstacles name obstaclesOf (known (.part part) data) =
      memberObstacles name obstaclesOf data :=
  memberObstacles_known counts fun value _ => congrArg obstaclesOf (known_whole value)

theorem listObstacles_known (same : ∀ item, obstaclesOf (known (.part inner) item) = obstaclesOf item)
    (data : Data) :
    listObstacles obstaclesOf (known (.parts inner) data) = listObstacles obstaclesOf data := by
  cases data with
  | list items =>
    rw [known, listObstacles, listObstacles, knownItems_eq_map]
    generalize 0 = index
    induction items generalizing index with
    | nil => rfl
    | cons item items ih => rw [List.map_cons, itemObstaclesFrom, itemObstaclesFrom, same, ih]
  | _ => rfl

theorem memberObstacles_known_list (counts : part.place? name = some (.parts inner))
    (same : ∀ item, obstaclesOf (known (.part inner) item) = obstaclesOf item) (data : Data) :
    memberObstacles name (listObstacles obstaclesOf) (known (.part part) data) =
      memberObstacles name (listObstacles obstaclesOf) data :=
  memberObstacles_known counts fun value _ => listObstacles_known same value

theorem referenceMember_known (holds : HoldsExpression part) (data : Data) :
    referenceMember (known (.part part) data) = referenceMember data := by
  rw [referenceMember, referenceMember, member?_known (holds.place? "$ref" .whole (by decide)),
    Option.isSome_map]

theorem HoldsExpression.place?_referenceMember (holds : HoldsExpression part) (data : Data) :
    part.place? (referenceMember data) = some .whole := by
  rw [referenceMember]
  split
  · exact holds.place? "$ref" .whole (by decide)
  · exact holds.place? "ref" .whole (by decide)

theorem expressionObstacles_known (holds : HoldsExpression part) (data : Data) :
    expressionObstacles (known (.part part) data) = expressionObstacles data := by
  induction data using items_induction generalizing part with
  | step data ih =>
    have below : Member "items" (fun items =>
        expressionObstacles (known (.part .expression) items) = expressionObstacles items) data :=
      fun items found => ih items found (by decide)
    rw [expressionObstacles_eq, expressionObstacles_eq data, referenceMember_known holds]
    simp only [memberObstacles_known_whole (holds.place? "description" .whole (by decide)),
      memberObstacles_known_whole (holds.place? "type" .whole (by decide)),
      memberObstacles_known_whole (holds.place?_referenceMember data),
      memberObstacles_known (holds.place? "items" (.part .expression) (by decide)) below,
      memberObstacles_known_whole (holds.place? "enum" .whole (by decide))]

theorem propertyObstacles_known (data : Data) :
    propertyObstacles (known (.part .property) data) = propertyObstacles data := by
  simp (disch := decide) only [propertyObstacles, expressionObstacles_known,
    memberObstacles_known_whole]

theorem propertiesObstacles_known (counts : part.place? name = some (.parts .property))
    (data : Data) :
    memberObstacles name (listObstacles propertyObstacles) (known (.part part) data) =
      memberObstacles name (listObstacles propertyObstacles) data :=
  memberObstacles_known_list counts propertyObstacles_known data

theorem declarationObstacles_known (data : Data) :
    declarationObstacles (known (.part .declaration) data) = declarationObstacles data := by
  simp (disch := decide) only [declarationObstacles, expressionObstacles_known,
    memberObstacles_known_whole, propertiesObstacles_known]

theorem commandObstacles_known (data : Data) :
    commandObstacles (known (.part .command) data) = commandObstacles data := by
  simp (disch := decide) only [commandObstacles, messageObstacles, memberObstacles_known_whole,
    propertiesObstacles_known]

theorem eventObstacles_known (data : Data) :
    messageObstacles (known (.part .event) data) = messageObstacles data := by
  simp (disch := decide) only [messageObstacles, memberObstacles_known_whole,
    propertiesObstacles_known]

theorem domainObstacles_known (data : Data) :
    domainObstacles (known (.part .domain) data) = domainObstacles data := by
  have types := memberObstacles_known_list
    (show Part.domain.place? "types" = some (.parts .declaration) by decide)
    declarationObstacles_known data
  have commands := memberObstacles_known_list
    (show Part.domain.place? "commands" = some (.parts .command) by decide)
    commandObstacles_known data
  have events := memberObstacles_known_list
    (show Part.domain.place? "events" = some (.parts .event) by decide) eventObstacles_known data
  simp (disch := decide) only [domainObstacles, memberObstacles_known_whole, types, commands, events]

theorem obstacles_known (data : Data) :
    obstacles (known (.part .document) data) = obstacles data :=
  memberObstacles_known_list (by decide) domainObstacles_known data

end Obstacles

section Decoding

variable {Result : Type} {part inner : Part} {name : String} {decodeOf : Data → Result}

theorem stringMember?_known (counts : part.place? name = some .whole) (data : Data) :
    stringMember? name (known (.part part) data) = stringMember? name data := by
  rw [stringMember?, stringMember?, member?_known counts]
  cases data.member? name <;> simp

theorem flagMember_known (counts : part.place? name = some .whole) (data : Data) :
    flagMember name (known (.part part) data) = flagMember name data := by
  rw [flagMember, flagMember, member?_known counts]
  cases data.member? name <;> simp

theorem listMember?_known_whole (counts : part.place? name = some .whole) (data : Data) :
    listMember? name (known (.part part) data) = listMember? name data := by
  rw [listMember?, listMember?, member?_known counts]
  cases data.member? name <;> simp

theorem listMember?_known (counts : part.place? name = some (.parts inner)) (data : Data) :
    listMember? name (known (.part part) data) =
      (listMember? name data).map (List.map (known (.part inner))) := by
  rw [listMember?, listMember?, member?_known counts]
  cases data.member? name with
  | none => rfl
  | some value =>
    cases value with
    | list items => simp only [Option.map_some, known, knownItems_eq_map]
    | _ => rfl

/-- The parts in a list are decoded to what they were decoded to. -/
theorem decodedList?_known (counts : part.place? name = some (.parts inner))
    (same : ∀ item, decodeOf (known (.part inner) item) = decodeOf item) (data : Data) :
    (listMember? name (known (.part part) data)).map (List.map decodeOf) =
      (listMember? name data).map (List.map decodeOf) := by
  have items : List.map decodeOf ∘ List.map (known (.part inner)) = List.map decodeOf := by
    rw [List.map_comp_map, show decodeOf ∘ known (.part inner) = decodeOf from funext same]
  rw [listMember?_known counts, Option.map_map, items]

theorem decodedList_known (counts : part.place? name = some (.parts inner))
    (same : ∀ item, decodeOf (known (.part inner) item) = decodeOf item) (data : Data) :
    (listMember name (known (.part part) data)).map decodeOf =
      (listMember name data).map decodeOf := by
  have absentIsEmpty (found : Option (List Data)) :
      (found.getD []).map decodeOf = (found.map (List.map decodeOf)).getD [] := by
    cases found <;> rfl
  rw [listMember, listMember, absentIsEmpty, absentIsEmpty, decodedList?_known counts same]

theorem decodeFacets_known (holds : HoldsExpression part) (data : Data) :
    decodeFacets (known (.part part) data) = decodeFacets data := by
  simp only [decodeFacets, referenceMember_known holds,
    stringMember?_known (holds.place? "description" .whole (by decide)),
    stringMember?_known (holds.place? "type" .whole (by decide)),
    stringMember?_known (holds.place?_referenceMember data),
    listMember?_known_whole (holds.place? "enum" .whole (by decide))]

theorem decodeExpression_eq (data : Data) :
    decodeExpression data = match data.member? "items" with
      | some items => .withItems (decodeFacets data) (decodeExpression items)
      | none => .plain (decodeFacets data) := by
  rw [decodeExpression]
  split <;> next found => simp only [found]

theorem decodeExpression_known (holds : HoldsExpression part) (data : Data) :
    decodeExpression (known (.part part) data) = decodeExpression data := by
  induction data using items_induction generalizing part with
  | step data ih =>
    have found := member?_known (holds.place? "items" (.part .expression) (by decide)) data
    rw [decodeExpression_eq, decodeExpression_eq data, decodeFacets_known holds, found]
    cases below : data.member? "items" with
    | none => rfl
    | some items =>
      have same := ih items below (show HoldsExpression .expression by decide)
      simp only [Option.map_some, same]

theorem decodeProperty_known (data : Data) :
    decodeProperty (known (.part .property) data) = decodeProperty data := by
  simp (disch := decide) only [decodeProperty, decodeExpression_known, stringMember?_known,
    flagMember_known]

theorem decodeDeclaration_known (data : Data) :
    decodeDeclaration (known (.part .declaration) data) = decodeDeclaration data := by
  have properties := decodedList?_known
    (show Part.declaration.place? "properties" = some (.parts .property) by decide)
    decodeProperty_known data
  simp (disch := decide) only [decodeDeclaration, decodeExpression_known, stringMember?_known,
    flagMember_known, properties]

theorem decodedProperties_known (counts : part.place? name = some (.parts .property)) (data : Data) :
    (listMember name (known (.part part) data)).map decodeProperty =
      (listMember name data).map decodeProperty :=
  decodedList_known counts decodeProperty_known data

theorem decodeCommand_known (data : Data) :
    decodeCommand (known (.part .command) data) = decodeCommand data := by
  simp (disch := decide) only [decodeCommand, stringMember?_known, flagMember_known,
    decodedProperties_known]

theorem decodeEvent_known (data : Data) :
    decodeEvent (known (.part .event) data) = decodeEvent data := by
  simp (disch := decide) only [decodeEvent, stringMember?_known, flagMember_known,
    decodedProperties_known]

theorem decodeDomain_known (data : Data) :
    decodeDomain (known (.part .domain) data) = decodeDomain data := by
  have types := decodedList_known
    (show Part.domain.place? "types" = some (.parts .declaration) by decide)
    decodeDeclaration_known data
  have commands := decodedList_known
    (show Part.domain.place? "commands" = some (.parts .command) by decide) decodeCommand_known data
  have events := decodedList_known
    (show Part.domain.place? "events" = some (.parts .event) by decide) decodeEvent_known data
  simp (disch := decide) only [decodeDomain, stringMember?_known, flagMember_known, types, commands,
    events]

theorem decode_known (data : Data) : decode (known (.part .document) data) = decode data := by
  have version := member?_known (show Part.document.place? "version" = some .whole by decide) data
  have domains := decodedList_known
    (show Part.document.place? "domains" = some (.parts .domain) by decide) decodeDomain_known data
  rw [decode, decode, version, domains, Option.map_congr fun value _ => known_whole value,
    Option.map_id']

end Decoding

end ProtocolGen.Document
