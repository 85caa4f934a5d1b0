import ProtocolGen.Proofs.Emission.Annotations

/-!
# Classes as their code has them

The classes of a module with the lines in their bodies that annotate fields and begin setters, read from
the code. A record is read as the fields that it was made of, with the annotation and the default of
each, and as the setters of its optional arguments, in order.
-/

set_option autoImplicit false

namespace ProtocolGen.Emission

open ProtocolGen.Types ProtocolGen.Source

/-! ## Reading lines -/

/-- The name at the start of a text, with what stands behind the mark after it. -/
def marked? (mark : String) (text : List Char) : Option (String × String) :=
  (Text.afterStart? mark.toList (text.dropWhile Naming.isNameChar)).map fun behind =>
    (String.ofList (text.takeWhile Naming.isNameChar), String.ofList behind)

/-- An annotation, and the default that is given behind it. -/
def splitDefault : List Char → List Char × Option (List Char)
  | ' ' :: '=' :: ' ' :: default => ([], some default)
  | char :: rest => (char :: (splitDefault rest).1, (splitDefault rest).2)
  | [] => ([], none)

theorem splitDefault_cons (char : Char) {rest : List Char} (apart : '=' ∉ rest.head?) :
    splitDefault (char :: rest) = (char :: (splitDefault rest).1, (splitDefault rest).2) := by
  rw [splitDefault.eq_def]
  split
  · next same =>
    cases same
    exact absurd rfl apart
  · next same =>
    cases same
    rfl
  · next same => cases same

structure FieldCode where
  name : String
  annotation : String
  default? : Option String
  deriving DecidableEq, Repr

/-- The field that a line annotates. -/
def fieldCode? (line : String) : Option FieldCode :=
  (marked? ": " line.toList).map fun (name, behind) =>
    let (written, default?) := splitDefault behind.toList
    ⟨name, String.ofList written, default?.map String.ofList⟩

/-- The setter that a line begins. -/
def setterOfLine? (line : String) : Option String :=
  ((functionOfLine? line).map Prod.fst).filter fun name => "set_".toList.isPrefixOf name.toList

/-- What a line says of the classes of its module: one begins, or the last one has a field or a
setter. -/
inductive ClassPart where
  | head (name : String)
  | field (field : FieldCode)
  | setter (name : String)
  deriving DecidableEq, Repr

def classPart? : Edit → Option ClassPart
  | .line text 0 => (classOfLine? text).map .head
  | .line text 1 => ((fieldCode? text).map .field).or ((setterOfLine? text).map .setter)
  | _ => none

theorem classPart?_outer (text : String) :
    classPart? (.line text 0) = (classOfLine? text).map .head := rfl

theorem classPart?_inner (text : String) : classPart? (.line text 1) =
    ((fieldCode? text).map .field).or ((setterOfLine? text).map .setter) := rfl

def classParts (edits : List Edit) : List ClassPart := edits.filterMap classPart?

/-! ## Gathering classes -/

structure ClassCode where
  name : String
  fields : List FieldCode
  setters : List String
  deriving DecidableEq, Repr

namespace ClassPart

def isHead : ClassPart → Bool
  | .head _ => true
  | _ => false

def field? : ClassPart → Option FieldCode
  | .field code => some code
  | _ => none

def setter? : ClassPart → Option String
  | .setter name => some name
  | _ => none

end ClassPart

/-- The classes that some parts make, each of what stands before the next head. -/
def gather : List ClassPart → List ClassCode
  | .head name :: rest =>
    let own := rest.takeWhile fun part => !part.isHead
    ⟨name, own.filterMap ClassPart.field?, own.filterMap ClassPart.setter?⟩ :: gather rest
  | _ :: rest => gather rest
  | [] => []

/-- The classes of a module of some code, with their fields and setters. -/
def classCodes (edits : List Edit) : List ClassCode := gather (classParts edits)

namespace ClassCode

def members (code : ClassCode) : List ClassPart := code.fields.map .field ++ code.setters.map .setter

def parts (code : ClassCode) : List ClassPart := .head code.name :: code.members

variable (code : ClassCode)

theorem isHead_of_mem_members : ∀ part ∈ code.members, !part.isHead := by
  intro part member
  rcases List.mem_append.mp member with isField | isSetter
  · obtain ⟨field, -, rfl⟩ := List.mem_map.mp isField
    rfl
  · obtain ⟨name, -, rfl⟩ := List.mem_map.mp isSetter
    rfl

theorem filterMap_field?_members : code.members.filterMap ClassPart.field? = code.fields := by
  simp [members, List.filterMap_map, Function.comp_def, ClassPart.field?]

theorem filterMap_setter?_members : code.members.filterMap ClassPart.setter? = code.setters := by
  simp [members, List.filterMap_map, Function.comp_def, ClassPart.setter?]

end ClassCode

theorem gather_append {members : List ClassPart} (inside : ∀ part ∈ members, !part.isHead)
    (rest : List ClassPart) : gather (members ++ rest) = gather rest := by
  induction members with
  | nil => rfl
  | cons part members ih =>
    obtain ⟨notHead, others⟩ := List.forall_mem_cons.mp inside
    cases part with
    | head name => cases notHead
    | field field => exact ih others
    | setter name => exact ih others

/-- Classes are gathered from their parts as they are. -/
theorem gather_parts (codes : List ClassCode) : gather (codes.flatMap ClassCode.parts) = codes := by
  induction codes with
  | nil => rfl
  | cons code codes ih =>
    have ends : (codes.flatMap ClassCode.parts).takeWhile (fun part => !part.isHead) = [] := by
      cases codes <;> rfl
    have own : (code.members ++ codes.flatMap ClassCode.parts).takeWhile (fun part => !part.isHead) =
        code.members := by
      rw [List.takeWhile_append_of_pos code.isHead_of_mem_members, ends, List.append_nil]
    rw [List.flatMap_cons, ClassCode.parts, List.cons_append, gather, own,
      code.filterMap_field?_members, code.filterMap_setter?_members,
      gather_append code.isHead_of_mem_members, ih]

/-! ## Lines -/

theorem marked?_of_names {name mark : String} {first : Char} {more : List Char}
    (names : ∀ char ∈ name.toList, Naming.isNameChar char) (marks : mark.toList = first :: more)
    (outside : ¬ Naming.isNameChar first) (text : String) :
    marked? mark (name ++ mark ++ text).toList = some (name, text) := by
  have chars : (name ++ mark ++ text).toList = name.toList ++ first :: (more ++ text.toList) := by
    simp [marks]
  have behind : Text.afterStart? mark.toList (first :: (more ++ text.toList)) = some text.toList := by
    rw [marks]
    exact Text.afterStart?_append (first :: more) text.toList
  rw [marked?, chars, dropWhile_word names outside, takeWhile_word names outside, behind,
    Option.map_some, String.ofList_toList, String.ofList_toList]

theorem splitDefault_plain {text : List Char} (plain : '=' ∉ text) :
    splitDefault text = (text, none) := by
  induction text with
  | nil => rfl
  | cons char rest ih =>
    have later : '=' ∉ rest := fun member => plain (List.mem_cons_of_mem _ member)
    rw [splitDefault_cons char fun first => later (List.mem_of_head? first), ih later]

theorem splitDefault_given {text : List Char} (plain : '=' ∉ text) (default : List Char) :
    splitDefault (text ++ ' ' :: '=' :: ' ' :: default) = (text, some default) := by
  induction text with
  | nil => rfl
  | cons char rest ih =>
    have later : '=' ∉ rest := fun member => plain (List.mem_cons_of_mem _ member)
    -- The mark of a default cannot begin within the annotation.
    have apart : '=' ∉ (rest ++ ' ' :: '=' :: ' ' :: default).head? := by
      cases rest with
      | nil => simp
      | cons second rest => simpa using fun same : second = '=' => later (by simp [same])
    rw [List.cons_append, splitDefault_cons char apart, ih later]

theorem fieldCode?_field {name written : String}
    (names : ∀ char ∈ name.toList, Naming.isNameChar char) (plain : '=' ∉ written.toList)
    (default? : Option String) :
    fieldCode? (match default? with
      | some default => name ++ ": " ++ written ++ " = " ++ default
      | none => name ++ ": " ++ written) = some ⟨name, written, default?⟩ := by
  have entry (text : String) : marked? ": " (name ++ ": " ++ text).toList = some (name, text) :=
    marked?_of_names names rfl (by decide) text
  cases default? with
  | none =>
    simp only [fieldCode?, entry, Option.map_some, splitDefault_plain plain, Option.map_none,
      String.ofList_toList]
  | some default =>
    have text : name ++ ": " ++ written ++ " = " ++ default =
        name ++ ": " ++ (written ++ " = " ++ default) := by
      simp only [String.append_assoc]
    have chars : (written ++ " = " ++ default).toList =
        written.toList ++ ' ' :: '=' :: ' ' :: default.toList := by simp
    dsimp only
    simp only [fieldCode?, text, entry, Option.map_some, chars, splitDefault_given plain,
      String.ofList_toList]

/-- A word with a blank behind it is no field. -/
theorem fieldCode?_word {word : String} (names : ∀ char ∈ word.toList, Naming.isNameChar char)
    (rest : String) : fieldCode? (word ++ " " ++ rest) = none := by
  have chars : (word ++ " " ++ rest).toList = word.toList ++ ' ' :: rest.toList := by simp
  rw [fieldCode?, marked?, chars, dropWhile_word names (by decide)]
  rfl

theorem classPart?_function {name : String} (names : ∀ char ∈ name.toList, Naming.isNameChar char)
    (rest : String) : classPart? (.line ("def " ++ name ++ "(" ++ rest) 1) =
      if "set_".toList.isPrefixOf name.toList then some (.setter name) else none := by
  have text : "def " ++ name ++ "(" ++ rest = "def" ++ " " ++ (name ++ "(" ++ rest) := by
    simp [← String.toList_inj]
  have notField : fieldCode? ("def " ++ name ++ "(" ++ rest) = none := by
    rw [text]
    exact fieldCode?_word (by decide) _
  rw [classPart?_inner, notField, setterOfLine?, functionOfLine?_head names]
  simp only [Option.map_none, Option.none_or, Option.map_some, Option.filter_some]
  split <;> rfl

theorem classPart?_field {name written : String}
    (names : ∀ char ∈ name.toList, Naming.isNameChar char) (plain : '=' ∉ written.toList)
    (default? : Option String) :
    classPart? (.line (match default? with
      | some default => name ++ ": " ++ written ++ " = " ++ default
      | none => name ++ ": " ++ written) 1) = some (.field ⟨name, written, default?⟩) := by
  rw [classPart?_inner, fieldCode?_field names plain]
  rfl

theorem classPart?_member {name : String} (names : ∀ char ∈ name.toList, Naming.isNameChar char)
    (value : String) : classPart? (.line (name ++ " = " ++ value) 1) = none := by
  have text : name ++ " = " ++ value = name ++ " " ++ ("= " ++ value) := by
    simp [← String.toList_inj]
  have chars : (name ++ " " ++ ("= " ++ value)).toList = name.toList ++ ' ' :: '=' :: ' ' :: value.toList := by
    simp
  rw [classPart?_inner, text, fieldCode?_word names, setterOfLine?, functionOfLine?, chars,
    dropWhile_word names (by decide), takeWhile_word names (by decide)]
  by_cases keyword : name.toList = "def".toList
  · rw [keyword]
    rfl
  · have unread : (if name.toList = "def".toList then
        some (String.ofList (('=' :: ' ' :: value.toList).takeWhile Naming.isNameChar),
          annotatedParameters [] (('=' :: ' ' :: value.toList).dropWhile Naming.isNameChar))
        else none) = none := if_neg keyword
    simp only [unread]
    rfl

theorem classPart?_class {name tail : String} (names : ∀ char ∈ name.toList, Naming.isNameChar char)
    (ends : ¬ tail.toList.head?.any Naming.isNameChar) :
    classPart? (.line ("class " ++ name ++ tail) 0) = some (.head name) := by
  rw [classPart?_outer, classOfLine?_head names ends]
  rfl

/-! ## Records -/

/-- A field as a record of the modules that are shared by all domains has it. -/
def Field.code (field : Field) : FieldCode :=
  ⟨field.memberName, field.annotation none, field.default? none⟩

theorem classParts_append (edits others : List Edit) :
    classParts (edits ++ others) = classParts edits ++ classParts others :=
  List.filterMap_append

theorem classParts_flatMap {Item : Type} {step : Item → List Edit} {parts : Item → List ClassPart}
    {items : List Item} (one : ∀ item ∈ items, classParts (step item) = parts item) :
    classParts (items.flatMap step) = items.flatMap parts := by
  rw [classParts, List.filterMap_flatMap]
  exact List.flatMap_congr one

theorem classParts_eq_nil {edits : List Edit} (quiet : ∀ edit ∈ edits, classPart? edit = none) :
    classParts edits = [] :=
  List.filterMap_eq_nil_iff.mpr quiet

theorem classParts_requireModules (package : String) (modules : List String) :
    classParts (requireModules package modules) = [] :=
  filterMap_requireModules (fun _ _ => rfl) package modules

section Records

variable {fields : List Field}

theorem classParts_toDictEdits : classParts (toDictEdits fields) = [] := by
  have wire (field : Field) : classParts (toWireEdits field) = [] :=
    filterMap_toWireEdits (fun _ _ => rfl) field
  have head : classPart? (.line "def to_dict(self) -> dict[str, Any]:" 1) = none :=
    classPart?_function (by decide : ∀ char ∈ "to_dict".toList, Naming.isNameChar char)
      "self) -> dict[str, Any]:"
  have method : classParts [.blank 1, .line "def to_dict(self) -> dict[str, Any]:" 1,
      .line "data: dict[str, Any] = \x7b\x7d" 2] = [] := by
    rw [classParts, List.filterMap_cons_none rfl, List.filterMap_cons_none head]
    rfl
  have body : classParts (fields.flatMap toWireEdits) = [] := by
    rw [classParts_flatMap fun field _ => wire field]
    exact List.flatMap_eq_nil_iff.mpr fun _ _ => rfl
  rw [toDictEdits, classParts_append, classParts_append, method, body]
  rfl

theorem classParts_fromDictEdits {name : String} : classParts (fromDictEdits none name fields) = [] := by
  have text : "def from_dict(cls, data: dict[str, Any]) -> " ++ name ++ ":" =
      "def " ++ "from_dict" ++ "(" ++ ("cls, data: dict[str, Any]) -> " ++ name ++ ":") := by
    simp [← String.toList_inj]
  have method : classPart? (.line ("def from_dict(cls, data: dict[str, Any]) -> " ++ name ++ ":") 1) =
      none := by
    rw [text, classPart?_function (by decide)]
    rfl
  have decorator : classPart? (.line "@classmethod" 1) = none := rfl
  have head : classParts [.blank 1, .line "@classmethod" 1,
      .line ("def from_dict(cls, data: dict[str, Any]) -> " ++ name ++ ":") 1] = [] := by
    simp only [classParts, List.filterMap_cons, List.filterMap_nil, decorator, method]
    rfl
  unfold fromDictEdits
  rw [classParts_append, head]
  split
  · rfl
  · refine classParts_eq_nil fun edit member => ?_
    rw [List.cons_append, List.mem_cons, List.mem_append, List.mem_singleton] at member
    rcases member with rfl | inFields | rfl
    · rfl
    · obtain ⟨field, -, rfl⟩ := List.mem_map.mp inFields
      rfl
    · rfl

/-- A record in a shared module is read as its fields and setters. -/
theorem classParts_recordEdits {package name : String} {documentation : List String}
    {setters : List Edit} {setterNames : List String}
    (names : ∀ char ∈ name.toList, Naming.isNameChar char)
    (memberNames : ∀ field ∈ fields, ∀ char ∈ field.memberName.toList, Naming.isNameChar char)
    (annotated : ∀ field ∈ fields, IsAnnotationText <| field.annotation none)
    (inner : classParts setters = setterNames.map .setter) :
    classParts (recordEdits none package name documentation fields setters) =
      ClassCode.parts ⟨name, fields.map Field.code, setterNames⟩ := by
  have front : classParts [.declare, .require "dataclasses" [], .require "typing" ["Any"], .blank 2,
      .line "@dataclasses.dataclass(kw_only=True)" 0, .line ("class " ++ name ++ ":") 0,
      .docstring documentation 1] = [.head name] := by
    have decorator : classPart? (.line "@dataclasses.dataclass(kw_only=True)" 0) = none := rfl
    simp only [classParts, List.filterMap_cons, List.filterMap_nil, decorator,
      @classPart?_class name ":" names (by decide)]
    rfl
  have gap : classParts (if fields.isEmpty then [] else [.blank 1]) = [] := by
    split <;> rfl
  have members : classParts (fields.flatMap (fieldEdits none)) =
      (fields.map Field.code).map ClassPart.field := by
    rw [classParts_flatMap (fun field member => ?_), List.map_map, List.map_eq_flatMap]
    have plain : '=' ∉ (field.annotation none).toList := by
      intro equals
      exact absurd (annotated field member _ equals) (by decide)
    have line := classPart?_field (memberNames field member) plain (field.default? none)
    exact (List.filterMap_cons_none rfl).trans (List.filterMap_cons_some line)
  rw [recordEdits, classParts_append, classParts_append, classParts_append, classParts_append,
    classParts_append, classParts_append, front, classParts_requireModules, gap, members, inner,
    classParts_toDictEdits, classParts_fromDictEdits]
  simp [ClassCode.parts, ClassCode.members]

end Records

/-! ## The commands module -/

/-- The fields of properties in a module that is shared by all domains. -/
def sharedFields (index : TypeIndex) (domain owner : String) (properties : List Property) : List Field :=
  (fieldsOf index none domain owner properties).toOption.getD []

/-- The record of some properties, of which some have setters. -/
def sharedRecord (index : TypeIndex) (domain name : String) (properties settable : List Property) :
    ClassCode :=
  ⟨name, (sharedFields index domain name properties).map Field.code,
    settable.map fun property => Naming.setterName (Naming.attributeName property.name)⟩

def argsCode (index : TypeIndex) (domain : String) (command : Command) : ClassCode :=
  sharedRecord index domain (Naming.argsName domain command.name) command.parameters
    command.optionalParameters

def commandCodes (index : TypeIndex) (domain : String) (command : Command) : List ClassCode :=
  (if command.parameters.isEmpty then [] else [argsCode index domain command]) ++
    if command.returns.isEmpty then []
    else [sharedRecord index domain (Naming.replyName domain command.name) command.returns []]

section Commands

variable {index : TypeIndex} {typesPackage domain owner name : String} {edits : List Edit}
  {properties : List Property} {fields : List Field}

theorem sharedFields_eq (made : fieldsOf index none domain owner properties = .ok fields) :
    sharedFields index domain owner properties = fields := by
  rw [sharedFields, made]
  rfl

theorem classParts_setterEdits (owner : String) {field : Field} {name : String}
    (member : field.memberName = Naming.attributeName name) :
    classParts (setterEdits none owner field) =
      [.setter (Naming.setterName (Naming.attributeName name))] := by
  have isSetter : "set_".toList.isPrefixOf
      (Naming.setterName (Naming.attributeName name)).toList := by
    rw [Naming.setterName, String.toList_append]
    exact List.isPrefixOf_iff_prefix.mpr (List.prefix_append _ _)
  have head := classPart?_function (isNameChar_setterName name) ("self, " ++
    Naming.attributeName name ++ ": " ++ annotation none false field.ref ++ ") -> " ++ owner ++ ":")
  rw [if_pos isSetter] at head
  rw [setterEdits, setterLine_eq, member]
  simp only [classParts, List.filterMap_cons, List.filterMap_nil, head]
  rfl

theorem classParts_setters (made : fieldsOf index none domain owner properties = .ok fields) :
    classParts ((fields.filter Field.omitEmpty).flatMap (setterEdits none owner)) =
      ((properties.filter Property.optional).map fun property =>
        Naming.setterName (Naming.attributeName property.name)).map .setter := by
  have each : ∀ field ∈ fields.filter Field.omitEmpty, classParts (setterEdits none owner field) =
      [.setter (Naming.setterName (Naming.attributeName field.property.name))] := by
    intro field member
    exact classParts_setterEdits owner
      (memberName_of_fieldsOf made field (List.mem_filter.mp member).1)
  rw [classParts_flatMap each, ← optional_of_fieldsOf made, List.map_map, List.map_map,
    List.map_eq_flatMap]
  rfl

theorem classParts_recordEdits_of_fieldsOf {package : String} {documentation : List String}
    {setters : List Edit} {settable : List Property}
    (names : ∀ char ∈ name.toList, Naming.isNameChar char)
    (made : fieldsOf index none domain name properties = .ok fields)
    (inner : classParts setters = (settable.map fun property =>
      Naming.setterName (Naming.attributeName property.name)).map .setter) :
    classParts (recordEdits none package name documentation fields setters) =
      (sharedRecord index domain name properties settable).parts := by
  rw [classParts_recordEdits names (isNameChar_memberName_of_fieldsOf made)
    (isAnnotationText_of_fieldsOf made) inner, sharedRecord, sharedFields_eq made]

theorem classParts_payload {documentation : List String} {setters : List Field → List Edit}
    (settable : List Property) (names : ∀ char ∈ name.toList, Naming.isNameChar char)
    (inner : ∀ fields, fieldsOf index none domain name properties = .ok fields →
      classParts (setters fields) = (settable.map fun property =>
        Naming.setterName (Naming.attributeName property.name)).map .setter)
    (code : PayloadCode index typesPackage domain name documentation properties setters edits) :
    classParts edits = (if properties.isEmpty then []
      else [sharedRecord index domain name properties settable]).flatMap ClassCode.parts := by
  cases code with
  | absent empty =>
    rw [if_pos empty]
    rfl
  | record given made =>
    rw [if_neg given, List.flatMap_singleton]
    exact classParts_recordEdits_of_fieldsOf names made (inner _ made)

theorem classParts_commandEdits {command : Command}
    (made : commandEdits index typesPackage domain command = .ok edits) :
    classParts edits = (commandCodes index domain command).flatMap ClassCode.parts := by
  obtain ⟨args, returns, rfl, argsPayload, returnsPayload⟩ := exists_payloads_of_commandEdits made
  rw [classParts_append, commandCodes, List.flatMap_append,
    classParts_payload command.optionalParameters (Naming.isNameChar_argsName _ _)
      (fun _ => classParts_setters) argsPayload,
    classParts_payload [] (Naming.isNameChar_replyName _ _) (fun _ _ => rfl) returnsPayload]
  rfl

theorem classParts_registryEdits {className : String} (heading documentation : String)
    (names : ∀ char ∈ className.toList, Naming.isNameChar char) (entries : List (String × String)) :
    classParts (registryEdits heading className documentation entries) = [.head className] := by
  have gap : classParts (if entries.isEmpty then [] else [.blank 1]) = [] := by
    split <;> rfl
  have members : classParts (entries.map fun (domain, name) =>
      .line (Naming.memberName domain name ++ " = " ++ Text.literalOf (wireName domain name)) 1) = [] := by
    refine classParts_eq_nil fun edit member => ?_
    obtain ⟨⟨domain, name⟩, -, rfl⟩ := List.mem_map.mp member
    exact classPart?_member (fun _ => Naming.isNameChar_of_mem_memberName) _
  rw [registryEdits, classParts_append, classParts_append, gap, members]
  simp only [classParts, List.filterMap_cons, List.filterMap_nil,
    @classPart?_class className "(StrEnum):" names (by decide)]
  rfl

/-- The classes of the commands module: the registry, and the records of each command. -/
theorem classCodes_commandsEdits {domains : List Domain}
    (made : commandsEdits index typesPackage domains = .ok edits) :
    classCodes edits = ⟨"CmdType", [], []⟩ :: domains.flatMap fun domain =>
      domain.commands.flatMap (commandCodes index domain.name) := by
  have registry : classParts (commandRegistryEdits domains) = [.head "CmdType"] :=
    classParts_registryEdits _ _ (by decide) _
  have ofDomain (domain : Domain) (body : List Edit)
      (bodyMade : domainCommandsEdits index typesPackage domain = .ok body) :
      classParts body =
        (domain.commands.flatMap (commandCodes index domain.name)).flatMap ClassCode.parts := by
    rw [classParts, filterMap_collectEdits bodyMade fun _ _ => classParts_commandEdits,
      List.filterMap_nil, List.nil_append, List.flatMap_assoc]
  rw [classCodes, classParts, filterMap_collectEdits made ofDomain, ← classParts, registry,
    ← List.flatMap_assoc]
  exact gather_parts (⟨"CmdType", [], []⟩ :: _)

end Commands

end ProtocolGen.Emission
