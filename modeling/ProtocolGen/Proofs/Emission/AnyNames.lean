import ProtocolGen.Proofs.Emission.Annotations
import ProtocolGen.Proofs.Naming.Members
import ProtocolGen.Proofs.Source.ImportSections

/-!
# The name `Any` in annotations

Where the code of a record or of a type alias has an annotation that names `Any`, it takes `Any` from
`typing`, and no other code beside the client has such an annotation. The client takes it from nowhere.
Its annotations name `Any` where a function that builds arguments takes a value of any type or a table,
and where a domain has a class of that name.
-/

set_option autoImplicit false

namespace ProtocolGen.Emission

open ProtocolGen.Types ProtocolGen.Source

/-! ## Code that takes `Any` when it names it -/

/-- The names that some code asks for, with the modules that they are taken from. -/
def requiredNames (edits : List Edit) : List (String × String) := edits.flatMap Edit.requiredNames

/-- Code that takes `Any` from `typing` when an annotation in it names it, and only words from there. -/
structure TakesAny (edits : List Edit) : Prop where
  covers : "Any" ∈ annotationNames edits → ("typing", "Any") ∈ requiredNames edits
  words : ∀ name, ("typing", name) ∈ requiredNames edits → Text.IsWord name.toList

namespace TakesAny

variable {edits others : List Edit}

theorem nil : TakesAny [] where
  covers named := by cases named
  words _ required := by cases required

theorem append (first : TakesAny edits) (second : TakesAny others) : TakesAny (edits ++ others) where
  covers named := by
    rw [annotationNames, List.flatMap_append] at named
    rw [requiredNames, List.flatMap_append]
    rcases List.mem_append.mp named with before | after
    · exact List.mem_append_left _ (first.covers before)
    · exact List.mem_append_right _ (second.covers after)
  words name required := by
    rw [requiredNames, List.flatMap_append] at required
    rcases List.mem_append.mp required with before | after
    · exact first.words name before
    · exact second.words name after

theorem of_collectEdits {Item : Type} {front : List Edit}
    {step : Item → Except Types.Failure (List Edit)} {items : List Item}
    (made : collectEdits front step items = .ok edits) (before : TakesAny front)
    (one : ∀ item body, step item = .ok body → TakesAny body) : TakesAny edits where
  covers named := by
    refine (mem_flatMap_collectEdits_iff made).mpr ?_
    rcases (mem_flatMap_collectEdits_iff made).mp named with inFront | ⟨item, inItems, body, step, inBody⟩
    · exact .inl (before.covers inFront)
    · exact .inr ⟨item, inItems, body, step, (one item body step).covers inBody⟩
  words name required := by
    rcases (mem_flatMap_collectEdits_iff made).mp required with inFront | ⟨item, -, body, step, inBody⟩
    · exact before.words name inFront
    · exact (one item body step).words name inBody

/-- Code whose annotations do not name `Any`. -/
theorem of_silent (silent : "Any" ∉ annotationNames edits)
    (words : ∀ name, ("typing", name) ∈ requiredNames edits → Text.IsWord name.toList) :
    TakesAny edits where
  covers named := absurd named silent
  words := words

end TakesAny

theorem annotationNames_append (edits others : List Edit) :
    annotationNames (edits ++ others) = annotationNames edits ++ annotationNames others :=
  List.flatMap_append

theorem annotationNames_cons (edit : Edit) (edits : List Edit) :
    annotationNames (edit :: edits) = annotationNamesOf edit ++ annotationNames edits :=
  List.flatMap_cons

theorem annotationNames_map_eq_nil {Item : Type} {line : Item → Edit} {items : List Item}
    (nothing : ∀ item ∈ items, annotationNamesOf (line item) = []) :
    annotationNames (items.map line) = [] := by
  rw [annotationNames, List.flatMap_map]
  exact List.flatMap_eq_nil_iff.mpr nothing

theorem annotationNames_requireModules (package : String) (modules : List String) :
    annotationNames (requireModules package modules) = [] :=
  annotationNames_map_eq_nil fun _ _ => rfl

theorem requiredNames_append (edits others : List Edit) :
    requiredNames (edits ++ others) = requiredNames edits ++ requiredNames others :=
  List.flatMap_append

theorem requiredNames_flatMap_eq_nil {Item : Type} {step : Item → List Edit}
    (nothing : ∀ item, requiredNames (step item) = []) (items : List Item) :
    requiredNames (items.flatMap step) = [] := by
  rw [requiredNames, List.flatMap_assoc]
  exact List.flatMap_eq_nil_iff.mpr fun item _ => nothing item

theorem requiredNames_map_eq_nil {Item : Type} {line : Item → Edit}
    (nothing : ∀ item, (line item).requiredNames = []) (items : List Item) :
    requiredNames (items.map line) = [] := by
  rw [requiredNames, List.flatMap_map]
  exact List.flatMap_eq_nil_iff.mpr fun item _ => nothing item

theorem requiredNames_requireModules (package : String) (modules : List String) :
    requiredNames (requireModules package modules) = modules.map fun module => (package, module) := by
  rw [requiredNames, requireModules, List.flatMap_map, List.map_eq_flatMap]
  rfl

/-! ## Records -/

section Records

variable {scope : Scope} {package name : String} {documentation : List String} {fields : List Field}
  {setters : List Edit}

theorem requiredNames_toDictEdits : requiredNames (toDictEdits fields) = [] := by
  have wire (field : Field) : requiredNames (toWireEdits field) = [] := by
    refine List.flatMap_eq_nil_iff.mpr fun edit member => ?_
    obtain ⟨text, indent, rfl⟩ := exists_line_of_mem_toWireEdits member
    rfl
  rw [toDictEdits, requiredNames_append, requiredNames_append, requiredNames_flatMap_eq_nil wire]
  rfl

theorem requiredNames_fromDictEdits : requiredNames (fromDictEdits scope name fields) = [] := by
  have call : requiredNames (.line "return cls(" 2 :: fields.map fun field =>
      .line (field.memberName ++ "=" ++ field.fromWire scope ++ ",") 3) = [] :=
    requiredNames_map_eq_nil (fun _ => rfl) fields
  unfold fromDictEdits
  split
  · rfl
  · rw [requiredNames_append, requiredNames_append, call]
    rfl

/-- A record takes `Any` whatever its fields are. -/
theorem requiredNames_recordEdits (inner : requiredNames setters = []) :
    requiredNames (recordEdits scope package name documentation fields setters) =
      ("typing", "Any") ::
        (fields.flatMap fun field => field.modules scope).map fun module => (package, module) := by
  have gap : requiredNames (if fields.isEmpty then [] else [.blank 1]) = [] := by
    split <;> rfl
  have members : requiredNames (fields.flatMap (fieldEdits scope)) = [] :=
    requiredNames_flatMap_eq_nil (fun _ => rfl) fields
  simp only [recordEdits, requiredNames_append, requiredNames_requireModules, gap, members, inner,
    requiredNames_toDictEdits, requiredNames_fromDictEdits, List.append_nil]
  rfl

theorem takesAny_recordEdits (notTyping : package ≠ "typing") (inner : requiredNames setters = []) :
    TakesAny (recordEdits scope package name documentation fields setters) where
  covers _ := by
    rw [requiredNames_recordEdits inner]
    exact List.mem_cons_self
  words name required := by
    rw [requiredNames_recordEdits inner] at required
    rcases List.mem_cons.mp required with any | module
    · cases any
      decide
    · obtain ⟨_, -, same⟩ := List.mem_map.mp module
      exact absurd (Prod.mk.inj same).1 notTyping

/-- A record names `Any` whatever its fields are, for it is written as a table. -/
theorem any_mem_recordEdits :
    "Any" ∈ annotationNames (recordEdits scope package name documentation fields setters) := by
  have table : "Any" ∈ annotationNamesOf (.line "data: dict[str, Any] = \x7b\x7d" 2) := by decide
  refine List.mem_flatMap.mpr ⟨_, ?_, table⟩
  simp [recordEdits, toDictEdits]

end Records

/-! ## Commands and events -/

section Shared

variable {index : TypeIndex} {typesPackage domain : String} {edits : List Edit}

theorem takesAny_registryEdits (heading className documentation : String)
    (entries : List (String × String)) :
    TakesAny (registryEdits heading className documentation entries) := by
  have head : lineAnnotations ("class " ++ className ++ "(StrEnum):") = [] := by
    rw [String.append_assoc]
    exact lineAnnotations_of_start (by decide) _
  have members : ∀ entry ∈ entries, annotationNamesOf (.line (Naming.memberName entry.1 entry.2 ++
      " = " ++ Text.literalOf (wireName entry.1 entry.2)) 1) = [] := by
    intro entry _
    rw [annotationNamesOf, lineAnnotations_member fun _ => Naming.isNameChar_of_mem_memberName]
    rfl
  have gap : annotationNames (if entries.isEmpty then [] else [.blank 1]) = [] := by
    split <;> rfl
  have asked : requiredNames (registryEdits heading className documentation entries) =
      [("enum", "StrEnum")] := by
    have none : requiredNames (if entries.isEmpty then [] else [.blank 1]) = [] := by
      split <;> rfl
    rw [registryEdits, requiredNames_append, requiredNames_append, none,
      requiredNames_map_eq_nil fun _ => rfl]
    rfl
  refine .of_silent ?_ ?_
  · rw [registryEdits, annotationNames_append, annotationNames_append, gap,
      annotationNames_map_eq_nil members]
    simp [annotationNames, annotationNamesOf, head]
  · intro name required
    rw [asked] at required
    simp at required

theorem takesAny_payload {name : String} {documentation : List String} {properties : List Property}
    {setters : List Field → List Edit} (notTyping : typesPackage ≠ "typing")
    (silent : ∀ fields, requiredNames (setters fields) = [])
    (code : PayloadCode index typesPackage domain name documentation properties setters edits) :
    TakesAny edits := by
  cases code with
  | absent => exact .nil
  | record => exact takesAny_recordEdits notTyping (silent _)

theorem takesAny_commandEdits {command : Command} (notTyping : typesPackage ≠ "typing")
    (made : commandEdits index typesPackage domain command = .ok edits) : TakesAny edits := by
  obtain ⟨args, returns, rfl, argsPayload, returnsPayload⟩ := exists_payloads_of_commandEdits made
  have setters (owner : String) (fields : List Field) :
      requiredNames ((fields.filter Field.omitEmpty).flatMap (setterEdits none owner)) = [] :=
    requiredNames_flatMap_eq_nil (fun _ => rfl) _
  exact .append (takesAny_payload notTyping (setters _) argsPayload)
    (takesAny_payload notTyping (fun _ => rfl) returnsPayload)

/-- The commands name `Any` as soon as one of them takes an argument. -/
theorem any_mem_commandsEdits {domains : List Domain} {sender : Domain} {command : Command}
    (made : commandsEdits index typesPackage domains = .ok edits) (inDomains : sender ∈ domains)
    (inCommands : command ∈ sender.commands) (taken : ¬ command.parameters.isEmpty) :
    "Any" ∈ annotationNames edits := by
  obtain ⟨body, bodyMade, within⟩ := exists_step_of_collectEdits made inDomains
  obtain ⟨own, ownMade, inside⟩ := exists_step_of_collectEdits bodyMade inCommands
  obtain ⟨args, returns, rfl, argsPayload, -⟩ := exists_payloads_of_commandEdits ownMade
  have named : "Any" ∈ annotationNames args := by
    cases argsPayload with
    | absent empty => exact absurd empty taken
    | record => exact any_mem_recordEdits
  obtain ⟨edit, inArgs, any⟩ := List.mem_flatMap.mp named
  exact List.mem_flatMap.mpr ⟨edit, within (inside (List.mem_append_left _ inArgs)), any⟩

theorem takesAny_commandsEdits {domains : List Domain} (notTyping : typesPackage ≠ "typing")
    (made : commandsEdits index typesPackage domains = .ok edits) : TakesAny edits :=
  .of_collectEdits made (takesAny_registryEdits _ _ _ _) fun _ _ bodyMade =>
    .of_collectEdits bodyMade .nil fun _ _ => takesAny_commandEdits notTyping

/-- A function whose only parameter is its object writes no annotation. -/
theorem lineAnnotations_self {name : String} (names : ∀ char ∈ name.toList, Naming.isNameChar char)
    (rest : String) : lineAnnotations ("def " ++ name ++ "(self)" ++ rest) = [] := by
  have text : "def " ++ name ++ "(self)" ++ rest =
      "def " ++ name ++ "(" ++ (", ".intercalate ["self"] ++ ")" ++ rest) := by
    simp [← String.toList_inj]
  have whole : ∀ parameter ∈ ["self"], IsWhole parameter.toList := by
    rw [List.forall_mem_singleton]
    exact isWhole_of_plain (by decide)
  rw [text, lineAnnotations_function names whole]
  decide

theorem lineAnnotations_close : lineAnnotations "def close(self) -> None:" = [] := by
  have text : "def close(self) -> None:" = "def " ++ "close" ++ "(self)" ++ " -> None:" := by simp
  rw [text, lineAnnotations_self (by decide)]

/-- An initializer annotates its parameter. -/
theorem lineAnnotations_initializer {parameter written : String}
    (names : ∀ char ∈ parameter.toList, Naming.isNameChar char)
    (known : ∀ char ∈ written.toList, Naming.isNameChar char) :
    lineAnnotations ("def __init__(self, " ++ parameter ++ ": " ++ written ++ ") -> None:") =
      [written.toList] := by
  have text : "def __init__(self, " ++ parameter ++ ": " ++ written ++ ") -> None:" =
      "def " ++ "__init__" ++ "(" ++
        (", ".intercalate ["self", parameter ++ ": " ++ written] ++ ")" ++ " -> None:") := by
    simp [← String.toList_inj]
  have self : IsWhole "self".toList := isWhole_of_plain (by decide)
  have annotated : IsWhole (parameter ++ ": " ++ written).toList := by
    have colon : IsWhole ": ".toList := isWhole_of_plain (by decide)
    rw [String.toList_append, String.toList_append]
    exact ((isWhole_of_names names).append colon).append (isWhole_of_names known)
  have whole : ∀ each ∈ ["self", parameter ++ ": " ++ written], IsWhole each.toList := by
    rw [List.forall_mem_cons, List.forall_mem_singleton]
    exact ⟨self, annotated⟩
  have unannotated : annotationOf? "self".toList = none := by decide
  rw [text, lineAnnotations_function (by decide) whole]
  simp only [List.filterMap_cons, List.filterMap_nil, unannotated, annotationOf?_annotated names]

theorem lineAnnotations_connection :
    lineAnnotations "def __init__(self, conn: Conn) -> None:" = ["Conn".toList] := by
  have text : "def __init__(self, conn: Conn) -> None:" =
      "def __init__(self, " ++ "conn" ++ ": " ++ "Conn" ++ ") -> None:" := by simp
  rw [text, lineAnnotations_initializer (by decide) (by decide)]

theorem takesAny_receiverEdits (event : String) : TakesAny (receiverEdits domain event) := by
  have head : lineAnnotations ("class " ++ Naming.eventClientName domain event ++ "(ABC):") = [] := by
    rw [String.append_assoc]
    exact lineAnnotations_of_start (by decide) _
  have receive : lineAnnotations ("def recv(self) -> " ++ Naming.replyName domain event ++ ":") = [] := by
    have text : "def recv(self) -> " ++ Naming.replyName domain event ++ ":" =
        "def " ++ "recv" ++ "(self)" ++ (" -> " ++ Naming.replyName domain event ++ ":") := by
      simp [← String.toList_inj]
    rw [text, lineAnnotations_self (by decide)]
  have abstract : lineAnnotations "@abstractmethod" = [] := by decide
  refine .of_silent ?_ ?_
  · simp [receiverEdits, annotationNames, annotationNamesOf, head, receive, abstract,
      lineAnnotations_close]
  · intro name required
    simp [receiverEdits, requiredNames, Edit.requiredNames] at required

theorem takesAny_eventsEdits {domains : List Domain} (notTyping : typesPackage ≠ "typing")
    (made : eventsEdits index typesPackage domains = .ok edits) : TakesAny edits := by
  refine .of_collectEdits made (takesAny_registryEdits _ _ _ _) fun domain body bodyMade => ?_
  refine .of_collectEdits bodyMade .nil fun event edits eventMade => ?_
  obtain ⟨fields, -, finished⟩ := bind_eq_ok_iff.mp eventMade
  cases finished
  exact (takesAny_receiverEdits event.name).append (takesAny_recordEdits notTyping rfl)

end Shared

/-! ## Types -/

section Types

variable {index : TypeIndex} {runtimeModule domain : String} {edits : List Edit}

theorem takesAny_enumerationEdits (name : String) (documentation labels : List String) :
    TakesAny (enumerationEdits runtimeModule name documentation labels) := by
  have head : lineAnnotations ("class " ++ name ++ "(WireEnum):") = [] := by
    rw [String.append_assoc]
    exact lineAnnotations_of_start (by decide) _
  have line (values comma : String) : lineAnnotations ("__labels__ = (" ++ values ++ comma ++ ")") = [] := by
    rw [String.append_assoc, String.append_assoc]
    exact lineAnnotations_of_start (by decide) _
  have unset : lineAnnotations (Naming.unsetMember ++ " = 0") = [] := by decide
  have members : ∀ entry ∈ (Naming.enumMemberNames labels).zipIdx 1,
      annotationNamesOf (.line (entry.1 ++ " = " ++ toString entry.2) 1) = [] := by
    intro entry inEntries
    have named := Naming.isNameChar_enumMemberNames labels entry.1 (List.fst_mem_of_mem_zipIdx inEntries)
    rw [annotationNamesOf, lineAnnotations_member named]
    rfl
  refine .of_silent ?_ ?_
  · rw [enumerationEdits, annotationNames_append, annotationNames_map_eq_nil members]
    simp [annotationNames, annotationNamesOf, head, unset, line]
  · intro member required
    rw [enumerationEdits, requiredNames_append, requiredNames_map_eq_nil fun _ => rfl] at required
    simp only [requiredNames, Edit.requiredNames, List.flatMap_cons, List.flatMap_nil, List.map_cons,
      List.map_nil, List.append_nil, List.nil_append, List.mem_singleton] at required
    cases required
    decide

theorem takesAny_rawEdits (name : String) (documentation : List String) :
    TakesAny (rawEdits runtimeModule name documentation) := by
  have head : lineAnnotations ("class " ++ name ++ "(RawMessage):") = [] := by
    rw [String.append_assoc]
    exact lineAnnotations_of_start (by decide) _
  refine .of_silent ?_ ?_
  · simp [rawEdits, annotationNames, annotationNamesOf, head]
  · intro member required
    simp only [rawEdits, requiredNames, Edit.requiredNames, List.flatMap_cons, List.flatMap_nil,
      List.map_cons, List.map_nil, List.append_nil, List.nil_append, List.mem_singleton] at required
    cases required
    decide

theorem hasPart_of_isInfix {part text : String} (notEmpty : part.toList ≠ [])
    (within : part.toList <:+: text.toList) : hasPart part text :=
  decide_eq_true (Text.one_lt_length_splitFrom notEmpty within)

/-- An alias takes `Any` when a part of what it stands for is written so, which is so whenever it names
`Any`. -/
theorem takesAny_aliasEdits {name : String} (names : ∀ char ∈ name.toList, Naming.isNameChar char)
    (documentation : List String) (target : TypeRef) :
    TakesAny (aliasEdits domain name documentation target) := by
  let written : String := annotation (some domain) true target
  let modules : List String := annotationModules (some domain) target
  let asked : List Edit := if hasPart "Any" written then [.require "typing" ["Any"]] else []
  have split : aliasEdits domain name documentation target =
      [.declare, .require "typing" ["TypeAlias"]] ++ requireModules siblingPackage modules ++ asked ++
        [.blank 2, .comment documentation 0 "#", .line (name ++ ": TypeAlias = " ++ written) 0] := rfl
  have alone : annotationNames asked = [] := by
    unfold asked
    split <;> rfl
  have read : annotationNames (aliasEdits domain name documentation target) =
      namesIn written.toList := by
    rw [split, annotationNames_append, annotationNames_append, annotationNames_append,
      annotationNames_requireModules, alone]
    simp [annotationNames, annotationNamesOf, lineAnnotations_alias names]
  have required : requiredNames (aliasEdits domain name documentation target) =
      ("typing", "TypeAlias") ::
        (modules.map (fun module => (siblingPackage, module)) ++ requiredNames asked) := by
    rw [split, requiredNames_append, requiredNames_append, requiredNames_append,
      requiredNames_requireModules]
    simp [requiredNames, Edit.requiredNames]
  constructor
  · intro named
    rw [read] at named
    have part : hasPart "Any" written := hasPart_of_isInfix (by decide) (isInfix_of_mem_namesIn named)
    have taken : ("typing", "Any") ∈ requiredNames asked := by
      unfold asked
      rw [if_pos part]
      exact List.mem_cons_self
    rw [required]
    exact List.mem_cons_of_mem _ (List.mem_append_right _ taken)
  · intro name asks
    rw [required] at asks
    rcases List.mem_cons.mp asks with first | later
    · cases first
      decide
    · rcases List.mem_append.mp later with module | any
      · obtain ⟨_, -, same⟩ := List.mem_map.mp module
        exact absurd (Prod.mk.inj same).1 (by decide)
      · unfold asked at any
        split at any
        · cases List.mem_singleton.mp any
          decide
        · cases any

theorem takesAny_declarationEdits {declaration : TypeDeclaration}
    (made : declarationEdits index runtimeModule domain declaration = .ok edits) : TakesAny edits := by
  cases declarationCode_of_declarationEdits made with
  | record => exact takesAny_recordEdits (by decide) rfl
  | enumeration => exact takesAny_enumerationEdits _ _ _
  | raw => exact takesAny_rawEdits _ _
  | typeAlias => exact takesAny_aliasEdits (isNameChar_className _) _ _

theorem takesAny_typesEdits {domain : Domain}
    (made : typesEdits index runtimeModule domain = .ok edits) : TakesAny edits := by
  have front : TakesAny [.header (some ("Types of the " ++ domain.name ++ " domain."))] :=
    .of_silent List.not_mem_nil fun _ required => absurd required List.not_mem_nil
  unfold typesEdits at made
  split at made
  · cases made
    exact .nil
  · exact .of_collectEdits made front fun _ _ => takesAny_declarationEdits

end Types

/-! ## The client -/

section Client

variable {index : TypeIndex} {runtimeModule typesPackage : String} {domain : Domain}
  {edits : List Edit}

theorem any_not_mem_requiredNames_clientEdits {domains : List Domain}
    (made : clientEdits index runtimeModule typesPackage domains = .ok edits) (module : String) :
    (module, "Any") ∉ requiredNames edits := by
  intro required
  obtain ⟨edit, inEdits, asks⟩ := List.mem_flatMap.mp required
  have imported : "Any" ∈ importedNames edits := by
    refine List.mem_cons_of_mem _ (List.mem_flatMap.mpr ⟨edit, inEdits, ?_⟩)
    cases edit with
    | require module names =>
      cases names with
      | nil => cases asks
      | cons name names =>
        obtain ⟨_, member, same⟩ := List.mem_map.mp asks
        rw [← (Prod.mk.inj same).2]
        exact member
    | _ => cases asks
  have none := (mem_importedNames_clientEdits_iff (by decide) made).mp imported
  simp at none

/-! ### Attributes -/

theorem mem_namesIn_name_iff {name other : String}
    (names : ∀ char ∈ name.toList, Naming.isNameChar char) (notEmpty : other.toList ≠ []) :
    other ∈ namesIn name.toList ↔ name = other := by
  rw [namesIn, wordNames_of_names names, List.nil_append, endedWord, String.ofList_toList]
  by_cases empty : name.toList = []
  · rw [if_pos (by simp [empty])]
    refine iff_of_false List.not_mem_nil ?_
    rintro rfl
    exact notEmpty empty
  · rw [if_neg (by simpa using empty), List.mem_singleton]
    exact eq_comm

/-- The attribute of a domain is annotated with the class of the domain. -/
theorem any_mem_clientSetup_iff {domains : List Domain} :
    "Any" ∈ annotationNames (clientSetup domains) ↔
      ∃ domain ∈ domains, Naming.domainClass domain.name = "Any" := by
  have own (domain : Domain) : "Any" ∈ annotationNamesOf
      (.line ("self." ++ Naming.moduleName domain.name ++ ": " ++ Naming.domainClass domain.name ++
        " = " ++ Naming.domainClass domain.name ++ "Domain(conn)") 2) ↔
        Naming.domainClass domain.name = "Any" := by
    let target : String := "self." ++ Naming.moduleName domain.name
    let written : String := Naming.domainClass domain.name ++ " "
    have names : ∀ char ∈ (Naming.domainClass domain.name).toList, Naming.isNameChar char :=
      fun _ => Naming.isNameChar_of_mem_domainClass
    have targets : ∀ char ∈ target.toList, isTargetChar char := by
      intro char member
      rw [String.toList_append] at member
      rcases List.mem_append.mp member with self | module
      · have known : ∀ char ∈ "self.".toList, isTargetChar char := by decide
        exact known char self
      · rw [isTargetChar, Naming.isNameChar_of_mem_moduleName module, Bool.true_or]
    have plain : '=' ∉ written.toList := by
      rw [String.toList_append]
      intro member
      rcases List.mem_append.mp member with inName | blank
      · exact absurd (names _ inName) (by decide)
      · exact absurd blank (by decide)
    have text : "self." ++ Naming.moduleName domain.name ++ ": " ++ Naming.domainClass domain.name ++
        " = " ++ Naming.domainClass domain.name ++ "Domain(conn)" =
          target ++ ": " ++ (written ++ "=" ++ (" " ++ Naming.domainClass domain.name ++
            "Domain(conn)")) := by
      simp [target, written, ← String.toList_inj]
    have chars : written.toList = (Naming.domainClass domain.name).toList ++ ' ' :: [] := by
      simp [written]
    have nothing : "Any" ∉ namesIn [] := List.not_mem_nil
    rw [annotationNamesOf, text, lineAnnotations_attribute targets (by simp [target]) plain,
      List.flatMap_singleton, chars, namesIn_append (by decide) (by decide), List.mem_append,
      or_iff_left nothing, mem_namesIn_name_iff names (by decide)]
  unfold clientSetup
  split
  · next none =>
    have bare : lineAnnotations "self._conn = conn" = [] := lineAnnotations_of_bare (by decide)
    simp [annotationNames, annotationNamesOf, bare, List.isEmpty_iff.mp none]
  · rw [annotationNames, List.flatMap_map, List.mem_flatMap]
    exact exists_congr fun domain => and_congr_right fun _ => own domain

theorem any_mem_clientClassEdits_iff {domains : List Domain} :
    "Any" ∈ annotationNames (clientClassEdits runtimeModule domains) ↔
      ∃ domain ∈ domains, Naming.domainClass domain.name = "Any" := by
  have head : annotationNamesOf (.line "class Client:" 0) = [] := by
    rw [annotationNamesOf, lineAnnotations_of_bare (by decide), List.flatMap_nil]
  have start : annotationNamesOf (.line "def __init__(self, conn: Conn) -> None:" 1) = ["Conn"] := by
    rw [annotationNamesOf, lineAnnotations_connection]
    decide
  rw [clientClassEdits, annotationNames_append, List.mem_append, any_mem_clientSetup_iff]
  refine or_iff_right ?_
  have other : "Any" ∉ ["Conn"] := by decide
  simp only [annotationNames, List.flatMap_cons, List.flatMap_nil, head, start]
  exact other

/-! ### Methods -/

/-- The arguments of a command are annotated with a class of the commands module. -/
theorem any_not_mem_commandSignature (command : Command) (indent : Nat) :
    "Any" ∉ annotationNamesOf (.line (commandSignature domain.name command) indent) := by
  let reply : String := if command.returns.isEmpty then "None"
    else "commands." ++ Naming.replyName domain.name command.name
  have names := isNameChar_attributeName command.name
  have self : IsWhole "self".toList := isWhole_of_plain (by decide)
  rw [annotationNamesOf, commandSignature]
  by_cases bare : command.parameters.isEmpty
  · have text : "def " ++ Naming.attributeName command.name ++ "(self" ++ "" ++ ") -> " ++ reply ++
        ":" = "def " ++ Naming.attributeName command.name ++ "(self)" ++ (" -> " ++ reply ++ ":") := by
      simp [← String.toList_inj]
    rw [if_pos bare, text, lineAnnotations_self names]
    exact List.not_mem_nil
  · let args : String := Naming.argsName domain.name command.name
    have text : "def " ++ Naming.attributeName command.name ++ "(self" ++ (", args: commands." ++ args) ++
        ") -> " ++ reply ++ ":" = "def " ++ Naming.attributeName command.name ++ "(" ++
          (", ".intercalate ["self", "args" ++ ": " ++ ("commands." ++ args)] ++ ")" ++
            (" -> " ++ reply ++ ":")) := by
      simp [← String.toList_inj]
    have parameter : IsWhole ("args" ++ ": " ++ ("commands." ++ args)).toList := by
      have front : IsWhole "args: commands.".toList := isWhole_of_plain (by decide)
      have chars : ("args" ++ ": " ++ ("commands." ++ args)).toList =
          "args: commands.".toList ++ args.toList := by simp
      rw [chars]
      exact front.append (isWhole_of_names (Naming.isNameChar_argsName _ _))
    have whole : ∀ parameter ∈ ["self", "args" ++ ": " ++ ("commands." ++ args)],
        IsWhole parameter.toList := by
      rw [List.forall_mem_cons, List.forall_mem_singleton]
      exact ⟨self, parameter⟩
    have unannotated : annotationOf? "self".toList = none := by decide
    have annotated : annotationOf? ("args" ++ ": " ++ ("commands." ++ args)).toList =
        some ("commands." ++ args).toList := annotationOf?_annotated (by decide) _
    have chars : ("commands." ++ args).toList = "commands".toList ++ '.' :: args.toList := by simp
    rw [if_neg bare, text, lineAnnotations_function names whole]
    simp only [List.filterMap_cons, List.filterMap_nil, unannotated, annotated]
    rw [List.flatMap_singleton, chars,
      namesIn_attribute (by decide) (by decide) (Naming.isNameChar_argsName _ _)]
    decide

theorem lineAnnotations_eventSignature (event : Event) :
    lineAnnotations (eventSignature domain.name event) = [] := by
  have text : eventSignature domain.name event = "def " ++ Naming.attributeName event.name ++ "(self)" ++
      (" -> events." ++ Naming.eventClientName domain.name event.name ++ ":") := by
    simp [eventSignature, ← String.toList_inj]
  rw [text, lineAnnotations_self (isNameChar_attributeName event.name)]

theorem any_not_mem_annotationNames_flatMap {Item : Type} {step : Item → List Edit}
    (silent : ∀ item, "Any" ∉ annotationNames (step item)) (items : List Item) :
    "Any" ∉ annotationNames (items.flatMap step) := by
  rw [annotationNames, List.flatMap_assoc, List.mem_flatMap]
  intro named
  obtain ⟨item, -, member⟩ := named
  exact silent item member

theorem any_not_mem_abstractMethodEdits {module signature : String} (documentation : List String)
    (silent : "Any" ∉ annotationNamesOf (.line signature 1)) :
    "Any" ∉ annotationNames
      (.require "." [module] :: abstractMethodEdits signature documentation) := by
  have mark : annotationNamesOf (.line "@abstractmethod" 1) = [] := by decide
  have rest : annotationNames [.docstring documentation 2] = [] := rfl
  have before : annotationNames (.require "." [module] :: abstractMethodEdits signature documentation) =
      annotationNames [.line "@abstractmethod" 1, .line signature 1, .docstring documentation 2] := rfl
  rw [before, annotationNames_cons, annotationNames_cons, mark, rest, List.nil_append, List.append_nil]
  exact silent

theorem any_not_mem_capabilityEdits : "Any" ∉ annotationNames (capabilityEdits domain) := by
  have head : lineAnnotations ("class " ++ Naming.domainClass domain.name ++ "(ABC):") = [] := by
    rw [String.append_assoc]
    exact lineAnnotations_of_start (by decide) _
  have front : "Any" ∉ annotationNames [.blank 2,
      .line ("class " ++ Naming.domainClass domain.name ++ "(ABC):") 0,
      .docstring (("The " ++ domain.name ++ " domain. " ++ domain.describe) :: domain.notes) 1] := by
    simp [annotationNames, annotationNamesOf, head]
  rw [capabilityEdits, annotationNames_append, annotationNames_append, List.mem_append, List.mem_append,
    not_or, not_or]
  refine ⟨⟨front, ?_⟩, ?_⟩
  · refine any_not_mem_annotationNames_flatMap (fun command => ?_) _
    exact any_not_mem_abstractMethodEdits _ (any_not_mem_commandSignature command 1)
  · refine any_not_mem_annotationNames_flatMap (fun event => ?_) _
    refine any_not_mem_abstractMethodEdits _ ?_
    rw [annotationNamesOf, lineAnnotations_eventSignature]
    exact List.not_mem_nil

theorem any_not_mem_commandMethodEdits (command : Command) :
    "Any" ∉ annotationNames (commandMethodEdits domain.name command) := by
  have head (text : String) :
      annotationNames [.blank 1, .line text 1] = annotationNamesOf (.line text 1) :=
    List.append_nil _
  unfold commandMethodEdits
  dsimp only
  rw [annotationNames_append, head, List.mem_append, not_or]
  refine ⟨any_not_mem_commandSignature command 1, ?_⟩
  split
  · simp (disch := decide) [annotationNames, annotationNamesOf, String.append_assoc,
      lineAnnotations_of_start]
  · simp (disch := decide) [annotationNames, annotationNamesOf, String.append_assoc,
      lineAnnotations_of_start]

theorem any_not_mem_eventMethodEdits (event : Event) :
    "Any" ∉ annotationNames (eventMethodEdits domain.name event) := by
  simp (disch := decide) [eventMethodEdits, annotationNames, annotationNamesOf, String.append_assoc,
    lineAnnotations_eventSignature, lineAnnotations_of_start]

theorem any_not_mem_connectedEdits : "Any" ∉ annotationNames (connectedEdits domain) := by
  have other : "Any" ∉ namesIn "Conn".toList := by decide
  rw [connectedEdits, annotationNames_append, annotationNames_append, List.mem_append, List.mem_append,
    not_or, not_or]
  refine ⟨⟨?_, ?_⟩, ?_⟩
  · simpa (disch := decide) [annotationNames, annotationNamesOf, String.append_assoc,
      lineAnnotations_connection, lineAnnotations_of_start, lineAnnotations_of_bare] using other
  · exact any_not_mem_annotationNames_flatMap any_not_mem_commandMethodEdits _
  · exact any_not_mem_annotationNames_flatMap any_not_mem_eventMethodEdits _

theorem any_not_mem_streamEdits (event : Event) :
    "Any" ∉ annotationNames (streamEdits runtimeModule domain.name event) := by
  have start : lineAnnotations "def __init__(self, stream: Stream) -> None:" = ["Stream".toList] := by
    have text : "def __init__(self, stream: Stream) -> None:" =
        "def __init__(self, " ++ "stream" ++ ": " ++ "Stream" ++ ") -> None:" := by simp
    rw [text, lineAnnotations_initializer (by decide) (by decide)]
  have other : "Any" ∉ namesIn "Stream".toList := by decide
  have receive (reply : String) :
      lineAnnotations ("def recv(self) -> events." ++ (reply ++ ":")) = [] := by
    have text : "def recv(self) -> events." ++ (reply ++ ":") =
        "def " ++ "recv" ++ "(self)" ++ (" -> events." ++ reply ++ ":") := by
      simp [← String.toList_inj]
    rw [text, lineAnnotations_self (by decide)]
  have kept : lineAnnotations "self._stream = stream" = [] :=
    lineAnnotations_of_start (by decide : isBareStart "self._stream ") "= stream"
  have data : lineAnnotations "data = self._stream.recv_msg()" = [] :=
    lineAnnotations_of_start (by decide : isBareStart "data ") "= self._stream.recv_msg()"
  have attempt : lineAnnotations "try:" = [] := by decide
  have caught :
      lineAnnotations "except (AttributeError, KeyError, TypeError, ValueError) as exc:" = [] :=
    lineAnnotations_of_start (by decide : isBareStart "except ")
      "(AttributeError, KeyError, TypeError, ValueError) as exc:"
  have closed : lineAnnotations "self._stream.close()" = [] :=
    lineAnnotations_of_start (by decide : isBareStart "self._stream.close(") ")"
  simpa (disch := decide) [streamEdits, annotationNames, annotationNamesOf, String.append_assoc, start,
    kept, receive, data, attempt, caught, closed, lineAnnotations_close,
    lineAnnotations_of_start] using other

theorem any_not_mem_domainClassEdits :
    "Any" ∉ annotationNames (domainClassEdits runtimeModule domain) := by
  have front : annotationNames [.header (some clientHeading), .declare,
      .require "abc" ["ABC", "abstractmethod"]] = [] := rfl
  rw [domainClassEdits, annotationNames_append, annotationNames_append, annotationNames_append, front]
  simp only [List.nil_append, List.mem_append, not_or]
  exact ⟨⟨any_not_mem_capabilityEdits, any_not_mem_connectedEdits⟩,
    any_not_mem_annotationNames_flatMap any_not_mem_streamEdits _⟩

/-! ### Functions that build arguments -/

section Arguments

variable {command : Command} {fields : List Field}
  (made : fieldsOf index none domain.name (Naming.argsName domain.name command.name)
    command.parameters = .ok fields)

include made

theorem isNameChar_names_of_fieldsOf : ∀ field ∈ fields, ∀ declared ∈ field.ref.names,
    ∀ char ∈ declared.className.toList, Naming.isNameChar char := by
  intro field member
  obtain ⟨property, ref, resolved, rfl⟩ := exists_fieldOf_of_mem made member
  exact isNameChar_of_resolve resolved

/-- The function that builds a command's arguments is annotated with the types of its required fields. -/
theorem lineAnnotations_argsConstructor :
    lineAnnotations ("def " ++ Naming.argsConstructorName domain.name command.name ++ "(" ++
        ", ".intercalate ((fields.filter fun field => !field.property.optional).map fun field =>
          field.memberName ++ ": " ++ field.annotation none) ++
        ") -> commands." ++ Naming.argsName domain.name command.name ++ ":") =
      (fields.filter fun field => !field.property.optional).map fun field =>
        (field.annotation none).toList := by
  let required : List Field := fields.filter fun field => !field.property.optional
  have within : ∀ field ∈ required, field ∈ fields := fun _ member => (List.mem_filter.mp member).1
  have memberName : ∀ field ∈ required, ∀ char ∈ field.memberName.toList, Naming.isNameChar char :=
    fun field inRequired => isNameChar_memberName_of_fieldsOf made field (within field inRequired)
  have whole : ∀ parameter ∈ required.map fun field =>
      field.memberName ++ ": " ++ field.annotation none, IsWhole parameter.toList := by
    intro parameter member
    obtain ⟨field, inRequired, rfl⟩ := List.mem_map.mp member
    rw [String.toList_append, String.toList_append]
    refine IsWhole.append (IsWhole.append ?_ (isWhole_of_plain (by decide))) ?_
    · exact isWhole_of_names (memberName field inRequired)
    · exact isWhole_fieldAnnotation (isNameChar_names_of_fieldsOf made field (within field inRequired)) none
  rw [argsConstructorHead_eq, lineAnnotations_function (Naming.isNameChar_argsConstructorName _ _) whole,
    List.filterMap_map, ← List.filterMap_eq_map]
  exact List.filterMap_congr fun field inRequired =>
    annotationOf?_annotated (memberName field inRequired) (field.annotation none)

theorem annotationNames_argsConstructorEdits :
    annotationNames (argsConstructorEdits typesPackage domain.name command fields) =
      (fields.filter fun field => !field.property.optional).flatMap fun field =>
        namesIn (field.annotation none).toList := by
  have finish (name keywords : String) :
      lineAnnotations ("return commands." ++ name ++ "(" ++ keywords ++ ")") = [] := by
    simp only [String.append_assoc]
    exact lineAnnotations_of_start (by decide) _
  rw [argsConstructorEdits, annotationNames_append, annotationNames_requireModules, List.nil_append]
  simp only [annotationNames, List.flatMap_cons, List.flatMap_nil, annotationNamesOf, finish,
    List.nil_append, List.append_nil]
  rw [lineAnnotations_argsConstructor made, List.flatMap_map]

theorem any_mem_argsConstructorEdits_iff :
    "Any" ∈ annotationNames (argsConstructorEdits typesPackage domain.name command fields) ↔
      ∃ field ∈ fields, ¬ field.property.optional ∧ namesAny field.ref := by
  rw [annotationNames_argsConstructorEdits made, List.mem_flatMap]
  constructor
  · rintro ⟨field, inRequired, any⟩
    obtain ⟨member, notOptional⟩ := List.mem_filter.mp inRequired
    refine ⟨field, member, by simpa using notOptional, ?_⟩
    exact (any_mem_namesIn_fieldAnnotation_iff (isNameChar_names_of_fieldsOf made field member)).mp any
  · rintro ⟨field, member, notOptional, any⟩
    refine ⟨field, List.mem_filter.mpr ⟨member, by simpa using notOptional⟩, ?_⟩
    exact (any_mem_namesIn_fieldAnnotation_iff (isNameChar_names_of_fieldsOf made field member)).mpr any

end Arguments

/-- The code of a function that builds the arguments of a command is part of the client. -/
theorem argsConstructorEdits_subset_clientEdits {domains : List Domain} {command : Command}
    {fields : List Field} (made : clientEdits index runtimeModule typesPackage domains = .ok edits)
    (inDomains : domain ∈ domains) (buildable : command ∈ buildableCommands domain)
    (fieldsMade : fieldsOf index none domain.name (Naming.argsName domain.name command.name)
      command.parameters = .ok fields) :
    argsConstructorEdits typesPackage domain.name command fields ⊆ edits := by
  obtain ⟨body, bodyMade, within⟩ := exists_step_of_collectEdits made inDomains
  obtain ⟨function, functionMade, inside⟩ := exists_step_of_collectEdits bodyMade buildable
  obtain ⟨others, othersMade, finished⟩ := bind_eq_ok_iff.mp functionMade
  cases fieldsMade.symm.trans othersMade
  cases finished
  exact fun edit member => within (inside member)

/-- A function that builds the arguments of a command names `Any` where a required one is of any type
or a table, or in arrays of such. -/
theorem any_mem_argsConstructor_iff {command : Command}
    (made : argsConstructor index typesPackage domain.name command = .ok edits) :
    "Any" ∈ annotationNames edits ↔ ∃ property ∈ requiredParameters command, ∃ ref,
      index.resolve domain.name (some property.name) property.expression = .ok ref ∧ namesAny ref := by
  obtain ⟨fields, fieldsMade, finished⟩ := bind_eq_ok_iff.mp made
  cases finished
  rw [any_mem_argsConstructorEdits_iff fieldsMade]
  constructor
  · intro mentions
    obtain ⟨field, member, notOptional, any⟩ := mentions
    obtain ⟨property, inParameters, ref, resolved, rfl⟩ := (mem_fieldsOf_iff fieldsMade).mp member
    refine ⟨property, List.mem_filter.mpr ⟨inParameters, ?_⟩, ref, resolved, any⟩
    simpa [fieldOf] using notOptional
  · intro mentions
    obtain ⟨property, inRequired, ref, resolved, any⟩ := mentions
    obtain ⟨inParameters, notOptional⟩ := List.mem_filter.mp inRequired
    refine ⟨fieldOf index none (Naming.argsName domain.name command.name) property ref, ?_, ?_, any⟩
    · exact (mem_fieldsOf_iff fieldsMade).mpr ⟨property, inParameters, ref, resolved, rfl⟩
    · simpa [fieldOf] using notOptional

/-- When the client's annotations name `Any`. -/
theorem any_mem_annotationNames_clientEdits_iff {domains : List Domain}
    (made : clientEdits index runtimeModule typesPackage domains = .ok edits) :
    "Any" ∈ annotationNames edits ↔ ∃ domain ∈ domains, Naming.domainClass domain.name = "Any" ∨
      ∃ command ∈ buildableCommands domain, ∃ property ∈ requiredParameters command, ∃ ref,
        index.resolve domain.name (some property.name) property.expression = .ok ref ∧
          namesAny ref := by
  have own {domain : Domain} {body : List Edit}
      (bodyMade : domainEdits index runtimeModule typesPackage domain = .ok body) :
      "Any" ∈ annotationNames body ↔ ∃ command ∈ buildableCommands domain,
        ∃ property ∈ requiredParameters command, ∃ ref,
          index.resolve domain.name (some property.name) property.expression = .ok ref ∧
            namesAny ref := by
    rw [annotationNames, mem_flatMap_collectEdits_iff bodyMade, ← annotationNames,
      or_iff_right any_not_mem_domainClassEdits]
    refine exists_congr fun command => and_congr_right fun inCommands => ?_
    constructor
    · intro mentions
      obtain ⟨function, functionMade, any⟩ := mentions
      exact (any_mem_argsConstructor_iff functionMade).mp any
    · intro mentions
      obtain ⟨function, functionMade, -⟩ := exists_step_of_collectEdits bodyMade inCommands
      exact ⟨function, functionMade, (any_mem_argsConstructor_iff functionMade).mpr mentions⟩
  rw [annotationNames, mem_flatMap_collectEdits_iff made, ← annotationNames,
    any_mem_clientClassEdits_iff]
  constructor
  · intro mentions
    rcases mentions with ⟨domain, inDomains, same⟩ | ⟨domain, inDomains, body, bodyMade, any⟩
    · exact ⟨domain, inDomains, .inl same⟩
    · exact ⟨domain, inDomains, .inr ((own bodyMade).mp any)⟩
  · intro mentions
    obtain ⟨domain, inDomains, same | builds⟩ := mentions
    · exact .inl ⟨domain, inDomains, same⟩
    · obtain ⟨body, bodyMade, -⟩ := exists_step_of_collectEdits made inDomains
      exact .inr ⟨domain, inDomains, body, bodyMade, (own bodyMade).mpr builds⟩

end Client

end ProtocolGen.Emission
