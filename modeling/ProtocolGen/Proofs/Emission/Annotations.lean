import ProtocolGen.Proofs.Emission.Builders

/-!
# Annotations in code

The annotations of fields, of attributes and of parameters, and what type aliases stand for, read from
the lines of a module, with the names in them. What is read of the head of a function is what its
parameters were written with, since every annotation closes the square brackets that it opens.
-/

set_option autoImplicit false

namespace ProtocolGen.Emission

open ProtocolGen.Types ProtocolGen.Source

/-! ## Reading lines -/

def bracketDepth (depth : Nat) (char : Char) : Nat :=
  if char = '[' then depth + 1 else if char = ']' then depth - 1 else depth

/-- The parameters of a function, from the text behind its opening bracket: what stands between commas
that are outside of square brackets, up to the closing bracket. The parameter that has begun is given,
and how many square brackets are open. -/
def parametersFrom (depth : Nat) (begun : List Char) : List Char → List (List Char)
  | [] => [begun]
  | char :: rest =>
    if depth = 0 ∧ char = ')' then [begun]
    else if depth = 0 ∧ char = ',' then begun :: parametersFrom 0 [] rest
    else parametersFrom (bracketDepth depth char) (begun ++ [char]) rest

/-- The annotation of a parameter: what stands behind its first colon and the blank after that. -/
def annotationOf? (parameter : List Char) : Option (List Char) :=
  match parameter.dropWhile (· != ':') with
  | _ :: _ :: text => some text
  | _ => none

/-- A character of what an annotation can be given to: a name, or an attribute of one. -/
def isTargetChar (char : Char) : Bool := Naming.isNameChar char || char == '.'

/-- What is annotated behind a target and its colon. A type alias is read as what it stands for. -/
def annotationBehind (target text : List Char) : List Char :=
  if target.contains '.' then text.takeWhile (· != '=')
  else (Text.afterStart? "TypeAlias = ".toList text).getD (text.takeWhile (· != '='))

/-- The annotations that a line writes: those of the parameters of a function, that of a field or an
attribute, or what a type alias stands for. -/
def lineAnnotations (line : String) : List (List Char) :=
  let target := line.toList.takeWhile isTargetChar
  match line.toList.dropWhile isTargetChar with
  | ':' :: ' ' :: text => [annotationBehind target text]
  | ' ' :: behind =>
    if target = "def".toList then
      match behind.dropWhile Naming.isNameChar with
      | '(' :: inside => (parametersFrom 0 [] inside).filterMap annotationOf?
      | _ => []
    else []
  | _ => []

/-- The name that a word is where it ends, unless it is the name of an attribute or no word at all. -/
def endedWord (isAttribute : Bool) (word : List Char) : List String :=
  if isAttribute || word.isEmpty then [] else [String.ofList word]

/-- The names in an annotation, other than those of attributes. The word that has begun is given, and
whether a dot stands before it. -/
def wordNames (isAttribute : Bool) (word : List Char) : List Char → List String
  | [] => endedWord isAttribute word
  | char :: rest =>
    if Naming.isNameChar char then wordNames isAttribute (word ++ [char]) rest
    else endedWord isAttribute word ++ wordNames (char == '.') [] rest

def namesIn (text : List Char) : List String := wordNames false [] text

def annotationNamesOf : Edit → List String
  | .line text _ => (lineAnnotations text).flatMap namesIn
  | _ => []

/-- The names in the annotations of some code. -/
def annotationNames (edits : List Edit) : List String := edits.flatMap annotationNamesOf

/-! ## Names in annotations -/

section Names

variable {isAttribute : Bool} {word : List Char}

theorem wordNames_of_names {name : List Char} (names : ∀ char ∈ name, Naming.isNameChar char) :
    wordNames isAttribute word name = endedWord isAttribute (word ++ name) := by
  induction name generalizing word with
  | nil => rw [wordNames, List.append_nil]
  | cons first name ih =>
    obtain ⟨isName, others⟩ := List.forall_mem_cons.mp names
    rw [wordNames, if_pos isName, ih others, List.append_assoc, List.singleton_append]

/-- A character that stands in no name parts the names before it from those behind it. -/
theorem wordNames_append {next : Char} (ends : ¬ Naming.isNameChar next) (before after : List Char) :
    wordNames isAttribute word (before ++ next :: after) =
      wordNames isAttribute word before ++ wordNames (next == '.') [] after := by
  induction before generalizing isAttribute word with
  | nil =>
    rw [List.nil_append, wordNames, wordNames]
    exact if_neg ends
  | cons first before ih =>
    rw [List.cons_append, wordNames, wordNames]
    split
    · exact ih
    · rw [ih, List.append_assoc]

theorem namesIn_append {next : Char} (ends : ¬ Naming.isNameChar next) (notDot : next ≠ '.')
    (before after : List Char) :
    namesIn (before ++ next :: after) = namesIn before ++ namesIn after := by
  rw [namesIn, wordNames_append ends, beq_false_of_ne notDot]
  rfl

theorem namesIn_name {name : String} (names : ∀ char ∈ name.toList, Naming.isNameChar char)
    (notEmpty : name.toList ≠ []) : namesIn name.toList = [name] := by
  rw [namesIn, wordNames_of_names names, List.nil_append, endedWord, if_neg (by simpa using notEmpty),
    String.ofList_toList]

/-- Of an attribute only the name before its dot counts. -/
theorem namesIn_attribute {module member : String}
    (moduleNames : ∀ char ∈ module.toList, Naming.isNameChar char) (notEmpty : module.toList ≠ [])
    (names : ∀ char ∈ member.toList, Naming.isNameChar char) :
    namesIn (module.toList ++ '.' :: member.toList) = [module] := by
  have behind : wordNames ('.' == '.') [] member.toList = [] := wordNames_of_names names
  rw [namesIn, wordNames_append (by decide), ← namesIn, namesIn_name moduleNames notEmpty, behind,
    List.append_nil]

theorem isInfix_of_mem_wordNames {name : String} {text : List Char}
    (member : name ∈ wordNames isAttribute word text) : name.toList <:+: word ++ text := by
  have ended {isAttribute : Bool} {word : List Char} (member : name ∈ endedWord isAttribute word) :
      name.toList = word := by
    unfold endedWord at member
    split at member
    · cases member
    · rw [List.mem_singleton.mp member, String.toList_ofList]
  induction text generalizing isAttribute word with
  | nil =>
    have start : word <+: word ++ [] := List.prefix_append _ _
    rw [ended member]
    exact start.isInfix
  | cons char text ih =>
    rw [wordNames] at member
    split at member
    · have found := ih member
      rwa [List.append_assoc, List.singleton_append] at found
    · rcases List.mem_append.mp member with before | after
      · rw [ended before]
        exact (List.prefix_append _ _).isInfix
      · have found : name.toList <:+: text := ih after
        exact found.trans ((List.suffix_cons _ _).trans (List.suffix_append _ _)).isInfix

theorem isInfix_of_mem_namesIn {name : String} {text : List Char} (member : name ∈ namesIn text) :
    name.toList <:+: text :=
  isInfix_of_mem_wordNames member

end Names

/-! ## Lines without annotations -/

/-- Whether a line that starts so writes no annotation, whatever follows. -/
def isBareStart (start : String) : Bool :=
  match start.toList.dropWhile isTargetChar with
  | next :: _ => next != ':' && !(next == ' ' && start.toList.takeWhile isTargetChar == "def".toList)
  | [] => false

theorem lineAnnotations_of_start {start : String} (bare : isBareStart start) (rest : String) :
    lineAnnotations (start ++ rest) = [] := by
  unfold isBareStart at bare
  split at bare
  · next next behind cut =>
    have inside : ∀ char ∈ start.toList.takeWhile isTargetChar, isTargetChar char :=
      fun _ => List.mem_takeWhile_imp
    have outside : ¬ isTargetChar next := by
      have ends := List.head?_dropWhile_not isTargetChar start.toList
      rw [cut] at ends
      simpa using ends
    have chars : (start ++ rest).toList =
        start.toList.takeWhile isTargetChar ++ next :: (behind ++ rest.toList) := by
      rw [String.toList_append, ← List.cons_append, ← cut, ← List.append_assoc,
        List.takeWhile_append_dropWhile]
    rw [Bool.and_eq_true, bne_iff_ne, Bool.not_eq_true', Bool.and_eq_false_iff] at bare
    obtain ⟨notColon, notFunction⟩ := bare
    rw [lineAnnotations, chars, dropWhile_word inside outside, takeWhile_word inside outside]
    split
    · next same => exact absurd (List.cons.inj same).1 notColon
    · next same =>
      rw [(List.cons.inj same).1] at notFunction
      exact if_neg (by simpa using notFunction)
    · rfl
  · cases bare

theorem lineAnnotations_of_bare {line : String} (bare : isBareStart line) :
    lineAnnotations line = [] := by
  have read := lineAnnotations_of_start bare ""
  rwa [String.append_empty] at read

/-- The line of a member with its value writes no annotation. -/
theorem lineAnnotations_member {name : String} (names : ∀ char ∈ name.toList, Naming.isNameChar char)
    (value : String) : lineAnnotations (name ++ " = " ++ value) = [] := by
  have targets : ∀ char ∈ name.toList, isTargetChar char := by
    intro char member
    rw [isTargetChar, names char member, Bool.true_or]
  have chars : (name ++ " = " ++ value).toList = name.toList ++ ' ' :: '=' :: ' ' :: value.toList := by
    simp
  rw [lineAnnotations, chars, dropWhile_word targets (by decide), takeWhile_word targets (by decide)]
  exact ite_id _

/-! ## Fields and aliases -/

theorem lineAnnotations_target {target : String} (targets : ∀ char ∈ target.toList, isTargetChar char)
    (text : String) :
    lineAnnotations (target ++ ": " ++ text) = [annotationBehind target.toList text.toList] := by
  have chars : (target ++ ": " ++ text).toList = target.toList ++ ':' :: ' ' :: text.toList := by simp
  rw [lineAnnotations, chars, dropWhile_word targets (by decide), takeWhile_word targets (by decide)]
  rfl

theorem lineAnnotations_alias {name : String} (names : ∀ char ∈ name.toList, Naming.isNameChar char)
    (meaning : String) : lineAnnotations (name ++ ": TypeAlias = " ++ meaning) = [meaning.toList] := by
  have targets : ∀ char ∈ name.toList, isTargetChar char := by
    intro char member
    rw [isTargetChar, names char member, Bool.true_or]
  have noDot : ¬ name.toList.contains '.' := by
    rw [List.contains_iff_mem]
    intro dot
    exact absurd (names _ dot) (by decide)
  have text : name ++ ": TypeAlias = " ++ meaning = name ++ ": " ++ ("TypeAlias = " ++ meaning) := by
    simp [← String.toList_inj]
  have found : Text.afterStart? "TypeAlias = ".toList ("TypeAlias = " ++ meaning).toList =
      some meaning.toList := by
    rw [String.toList_append]
    exact Text.afterStart?_append _ _
  rw [text, lineAnnotations_target targets, annotationBehind, if_neg noDot, found, Option.getD_some]

/-- An attribute's annotation ends where it is given its value. -/
theorem lineAnnotations_attribute {target : String}
    (targets : ∀ char ∈ target.toList, isTargetChar char) (dotted : '.' ∈ target.toList)
    {written : String} (plain : '=' ∉ written.toList) (value : String) :
    lineAnnotations (target ++ ": " ++ (written ++ "=" ++ value)) = [written.toList] := by
  have chars : (written ++ "=" ++ value).toList = written.toList ++ '=' :: value.toList := by simp
  have inside : ∀ char ∈ written.toList, char != '=' := by
    intro char member
    rw [bne_iff_ne]
    rintro rfl
    exact plain member
  rw [lineAnnotations_target targets, annotationBehind, if_pos (List.contains_iff_mem.mpr dotted),
    chars, takeWhile_word inside (by decide)]

/-! ## Heads of functions -/

/-- A text that is read as part of one parameter: its commas stand in square brackets, and each bracket
that it opens it closes. -/
def IsWhole (text : List Char) : Prop :=
  ∀ depth begun rest,
    parametersFrom depth begun (text ++ rest) = parametersFrom depth (begun ++ text) rest

theorem isWhole_of_plain {text : List Char} (plain : ∀ char ∈ text, char ∉ [',', ')', '[', ']']) :
    IsWhole text := by
  intro depth begun rest
  induction text generalizing begun with
  | nil => rw [List.nil_append, List.append_nil]
  | cons char text ih =>
    obtain ⟨first, others⟩ := List.forall_mem_cons.mp plain
    simp only [List.mem_cons, List.not_mem_nil, or_false, not_or] at first
    obtain ⟨notComma, notClosing, notOpening, notEnding⟩ := first
    have same : bracketDepth depth char = depth := by
      rw [bracketDepth, if_neg notOpening, if_neg notEnding]
    rw [List.cons_append, parametersFrom, if_neg fun ends => notClosing ends.2,
      if_neg fun ends => notComma ends.2, same, ih others, List.append_assoc, List.singleton_append]

theorem IsWhole.append {text more : List Char} (first : IsWhole text) (second : IsWhole more) :
    IsWhole (text ++ more) := by
  intro depth begun rest
  rw [List.append_assoc, first, second, List.append_assoc]

theorem IsWhole.enclosed {text : List Char} (whole : IsWhole text) :
    IsWhole ('[' :: (text ++ [']'])) := by
  intro depth begun rest
  have shape : '[' :: (text ++ [']']) ++ rest = '[' :: (text ++ ']' :: rest) := by simp
  have inner : bracketDepth (bracketDepth depth '[') ']' = depth := rfl
  rw [shape, parametersFrom, if_neg (by simp), if_neg (by simp), whole, parametersFrom,
    if_neg (by simp), if_neg (by simp), inner]
  simp

theorem isWhole_of_names {name : String} (names : ∀ char ∈ name.toList, Naming.isNameChar char) :
    IsWhole name.toList := by
  refine isWhole_of_plain fun char member mark => ?_
  have marks : ∀ char ∈ [',', ')', '[', ']'], ¬ Naming.isNameChar char := by decide
  exact marks char mark (names char member)

theorem annotationOf?_append {begun : List Char} (noColon : ':' ∉ begun) (parameter : List Char) :
    annotationOf? (begun ++ parameter) = annotationOf? parameter := by
  have inside : ∀ char ∈ begun, char != ':' := by
    intro char member
    rw [bne_iff_ne]
    rintro rfl
    exact noColon member
  rw [annotationOf?, List.dropWhile_append_of_pos inside, annotationOf?]

theorem annotationOf?_annotated {name : String} (names : ∀ char ∈ name.toList, Naming.isNameChar char)
    (written : String) :
    annotationOf? (name ++ ": " ++ written).toList = some written.toList := by
  have chars : (name ++ ": " ++ written).toList =
      name.toList ++ ':' :: ' ' :: written.toList := by simp
  have noColon : ':' ∉ name.toList := by
    intro colon
    exact absurd (names _ colon) (by decide)
  rw [chars, annotationOf?_append noColon]
  rfl

/-- What is read of joined parameters is read of each of them, by a reader that skips what has begun
before the first one and the blanks before the others. -/
theorem filterMap_parametersFrom {Result : Type} {read : List Char → Option Result}
    (empty : read [] = none) (blank : ∀ text, read (' ' :: text) = read text)
    {parameters : List String} {begun : List Char} (skips : ∀ text, read (begun ++ text) = read text)
    (whole : ∀ parameter ∈ parameters, IsWhole parameter.toList) (rest : List Char) :
    (parametersFrom 0 begun ((", ".intercalate parameters).toList ++ ')' :: rest)).filterMap read =
      parameters.filterMap fun parameter => read parameter.toList := by
  have closed (begun : List Char) : parametersFrom 0 begun (')' :: rest) = [begun] := by
    rw [parametersFrom, if_pos ⟨rfl, rfl⟩]
  induction parameters generalizing begun with
  | nil =>
    have nothing : read begun = none := by
      have start := skips []
      rwa [List.append_nil, empty] at start
    rw [String.intercalate_nil, String.toList_empty, List.nil_append, closed,
      List.filterMap_cons_none nothing, List.filterMap_nil, List.filterMap_nil]
  | cons parameter parameters ih =>
    obtain ⟨first, others⟩ := List.forall_mem_cons.mp whole
    cases parameters with
    | nil =>
      rw [String.intercalate_singleton, first, closed, List.filterMap_cons, List.filterMap_cons, skips,
        List.filterMap_nil, List.filterMap_nil]
    | cons next parameters =>
      have chars : (", ".intercalate (parameter :: next :: parameters)).toList ++ ')' :: rest =
          parameter.toList ++
            ',' :: ' ' :: ((", ".intercalate (next :: parameters)).toList ++ ')' :: rest) := by
        simp [String.intercalate_cons_cons]
      have depth : bracketDepth 0 ' ' = 0 := rfl
      rw [chars, first, parametersFrom, if_neg (by simp), if_pos ⟨rfl, rfl⟩, parametersFrom,
        if_neg (by simp), if_neg (by simp), List.filterMap_cons, skips, List.filterMap_cons, depth,
        List.nil_append, ih blank others]

/-- What is read of joined parameters are their annotations, whatever has begun before them. -/
theorem annotations_of_parametersFrom {parameters : List String} {begun : List Char}
    (noColon : ':' ∉ begun) (whole : ∀ parameter ∈ parameters, IsWhole parameter.toList)
    (rest : List Char) :
    (parametersFrom 0 begun ((", ".intercalate parameters).toList ++ ')' :: rest)).filterMap
      annotationOf? = parameters.filterMap fun parameter => annotationOf? parameter.toList := by
  have blank : ':' ∉ [' '] := by decide
  exact filterMap_parametersFrom rfl (annotationOf?_append blank) (annotationOf?_append noColon) whole
    rest

/-- A function's head writes the annotations of its parameters. -/
theorem lineAnnotations_function {name : String} {parameters : List String}
    (names : ∀ char ∈ name.toList, Naming.isNameChar char)
    (whole : ∀ parameter ∈ parameters, IsWhole parameter.toList) (rest : String) :
    lineAnnotations ("def " ++ name ++ "(" ++ (", ".intercalate parameters ++ ")" ++ rest)) =
      parameters.filterMap fun parameter => annotationOf? parameter.toList := by
  have word : ∀ char ∈ "def".toList, isTargetChar char := by decide
  have chars : ("def " ++ name ++ "(" ++ (", ".intercalate parameters ++ ")" ++ rest)).toList =
      "def".toList ++ ' ' :: (name.toList ++
        '(' :: ((", ".intercalate parameters).toList ++ ')' :: rest.toList)) := by simp
  rw [lineAnnotations, chars, dropWhile_word word (by decide), takeWhile_word word (by decide)]
  refine (if_pos rfl).trans ?_
  rw [dropWhile_word names (by decide)]
  exact annotations_of_parametersFrom List.not_mem_nil whole _

example : lineAnnotations "def f(a: dict[str, Any], b: k.Any):" =
    ["dict[str, Any]".toList, "k.Any".toList] := by decide +kernel

/-! ## Annotations of types -/

/-- Whether the annotation of a type names `Any`: the type is any value or a table, in any arrays. -/
def namesAny : TypeRef → Bool
  | .any | .map => true
  | .array item => namesAny item
  | _ => false

theorem toList_annotation_array (scope : Scope) (item : TypeRef) :
    String.toList ( annotation scope false (.array item)) =
      "list".toList ++ '[' :: (String.toList ( annotation scope false item) ++ [']']) := by
  have text : annotation scope false (.array item) = "list[" ++ annotation scope false item ++ "]" := rfl
  simp [text]

section Types

variable {ref : TypeRef}
  (named : ∀ declared ∈ ref.names, ∀ char ∈ declared.className.toList, Naming.isNameChar char)

include named

theorem isWhole_annotation (scope : Scope) : IsWhole <| String.toList <| annotation scope false ref := by
  have qualified {declared : Declared}
      (names : ∀ char ∈ declared.className.toList, Naming.isNameChar char) :
      IsWhole (qualifiedName scope declared).toList := by
    have module : IsWhole (Naming.moduleName declared.domain).toList :=
      isWhole_of_names fun _ => Naming.isNameChar_of_mem_moduleName
    unfold qualifiedName
    split
    · exact isWhole_of_names names
    · rw [String.toList_append, String.toList_append]
      exact (module.append (isWhole_of_plain (by decide))).append (isWhole_of_names names)
  induction ref with
  | primitive primitive =>
    unfold annotation
    cases primitive <;> exact isWhole_of_plain (by decide)
  | any =>
    unfold annotation
    exact isWhole_of_plain (by decide)
  | map =>
    intro depth begun rest
    simp [parametersFrom, bracketDepth, annotation]
  | array item ih =>
    rw [toList_annotation_array]
    exact (isWhole_of_plain (by decide)).append (ih named).enclosed
  | record declared | enumeration declared | raw declared =>
    exact qualified (named declared List.mem_cons_self)
  | _ declared meaning => exact qualified (named declared List.mem_cons_self)

/-- In a module that is shared by all domains declared types are attributes, so they name nothing. -/
theorem any_mem_namesIn_annotation_iff :
    "Any" ∈ namesIn (String.toList ( annotation none false ref)) ↔ namesAny ref := by
  have qualified {declared : Declared}
      (names : ∀ char ∈ declared.className.toList, Naming.isNameChar char) :
      "Any" ∉ namesIn (qualifiedName none declared).toList := by
    have text : (qualifiedName none declared).toList =
        (Naming.moduleName declared.domain).toList ++ '.' :: declared.className.toList := by
      simp [qualifiedName, isOwn]
    have notEmpty : (Naming.moduleName declared.domain).toList ≠ [] := by
      obtain ⟨before, first, rest, parts, -⟩ := Naming.beginsPlainly_moduleName declared.domain
      simp [parts]
    rw [text, namesIn_attribute (fun _ => Naming.isNameChar_of_mem_moduleName) notEmpty names,
      List.mem_singleton]
    intro same
    refine Naming.not_hasCapital_moduleName declared.domain ?_
    rw [← same]
    decide
  induction ref with
  | primitive primitive =>
    unfold annotation
    cases primitive <;> decide
  | any | map =>
    unfold annotation
    decide
  | array item ih =>
    have list : "Any" ∉ namesIn "list".toList := by decide
    have nothing : "Any" ∉ namesIn [] := List.not_mem_nil
    rw [toList_annotation_array, namesIn_append (by decide) (by decide),
      namesIn_append (by decide) (by decide), List.mem_append, List.mem_append, or_iff_right list, or_iff_left nothing]
    exact ih named
  | record declared | enumeration declared | raw declared =>
    exact iff_of_false (qualified (named declared List.mem_cons_self)) Bool.false_ne_true
  | _ declared meaning =>
    exact iff_of_false (qualified (named declared List.mem_cons_self)) Bool.false_ne_true

end Types

section Fields

variable {field : Field}
  (named : ∀ declared ∈ field.ref.names, ∀ char ∈ declared.className.toList, Naming.isNameChar char)

include named

theorem isWhole_fieldAnnotation (scope : Scope) : IsWhole (field.annotation scope).toList := by
  have text := isWhole_annotation named scope
  unfold Field.annotation
  dsimp only
  split
  · rw [String.toList_append]
    exact text.append (isWhole_of_plain (by decide))
  · exact text

theorem any_mem_namesIn_fieldAnnotation_iff :
    "Any" ∈ namesIn (field.annotation none).toList ↔ namesAny field.ref := by
  have own := any_mem_namesIn_annotation_iff named
  unfold Field.annotation
  dsimp only
  split
  · have chars : ( annotation none false field.ref ++ " | None").toList =
        ( annotation none false field.ref).toList ++ ' ' :: "| None".toList := by simp
    have missing : "Any" ∉ namesIn "| None".toList := by decide
    rw [chars, namesIn_append (by decide) (by decide), List.mem_append, or_iff_left missing, own]
  · exact own

end Fields

theorem isWhole_annotation_of_fieldsOf {index : TypeIndex} {scope : Scope} {domain owner : String}
    {properties : List Property} {fields : List Field}
    (made : fieldsOf index scope domain owner properties = .ok fields) (shown : Scope) :
    ∀ field ∈ fields, IsWhole (field.annotation shown).toList := by
  intro field member
  obtain ⟨property, ref, resolved, rfl⟩ := exists_fieldOf_of_mem made member
  exact isWhole_fieldAnnotation (isNameChar_of_resolve resolved) shown

end ProtocolGen.Emission
