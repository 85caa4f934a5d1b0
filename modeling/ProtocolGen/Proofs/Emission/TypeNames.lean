import ProtocolGen.Emission.Field
import ProtocolGen.Proofs.Emission.Definitions
import ProtocolGen.Proofs.Types.DeclaredNames

/-!
# Names of declared types in code

The annotation of a type, the code that decodes it and the default of a field are fixed words with
names of declared types among them. Every such name is seen from where it is written: it is a bare
class name of the scope's own domain, or stands behind a module that is imported with it. And it is
defined by the types module of the domain that declares it.
-/

set_option autoImplicit false

namespace ProtocolGen.Emission

open ProtocolGen.Types ProtocolGen.Source

/-! ## Texts in parts -/

/-- A part of a text: code that stands for itself, or the name of a declared type. -/
inductive Part where
  | code (text : String)
  | name (declared : Declared)
  deriving DecidableEq, Repr

def Part.text (scope : Scope) : Part → String
  | .code text => text
  | .name declared => qualifiedName scope declared

def joined (scope : Scope) (parts : List Part) : String :=
  String.join (parts.map (Part.text scope))

section Joined

variable (scope : Scope)

@[simp] theorem joined_nil : joined scope [] = "" := rfl

@[simp] theorem joined_cons (part : Part) (parts : List Part) :
    joined scope (part :: parts) = part.text scope ++ joined scope parts := by
  rw [joined, List.map_cons, String.join_cons]
  rfl

@[simp] theorem joined_append (parts others : List Part) :
    joined scope (parts ++ others) = joined scope parts ++ joined scope others := by
  rw [joined, List.map_append, String.join_append]
  rfl

@[simp] theorem text_code (text : String) : (Part.code text).text scope = text := rfl

@[simp] theorem text_name (declared : Declared) :
    (Part.name declared).text scope = qualifiedName scope declared := rfl

end Joined

def nameParts (quoted : Bool) (declared : Declared) : List Part :=
  if quoted then [.code "\"", .name declared, .code "\""] else [.name declared]

def annotationParts (quoted : Bool) : TypeRef → List Part
  | .primitive primitive => [.code (primitiveName primitive)]
  | .any => [.code "Any"]
  | .map => [.code "dict[str, Any]"]
  | .array item => .code "list[" :: annotationParts quoted item ++ [.code "]"]
  | .record declared | .enumeration declared | .raw declared | .alias declared _ =>
    nameParts quoted declared

/-- Whether decoding leaves values of a type as they are. -/
def passesThrough (ref : TypeRef) : Bool :=
  match ref.target with
  | .primitive _ | .any | .map => true
  | _ => false

def decodeParts : TypeRef → String → Nat → List Part
  | .alias _ meaning, source, depth => decodeParts meaning source depth
  | .record declared, source, _ =>
    [.name declared, .code ".from_dict(", .code source, .code ")"]
  | .enumeration declared, source, _ | .raw declared, source, _ =>
    [.name declared, .code ".from_wire(", .code source, .code ")"]
  | .array item, source, depth =>
    if passesThrough item then [.code "list(", .code source, .code ")"]
    else
      .code "[" :: decodeParts item (loopName depth) (depth + 1) ++
        [.code " for ", .code (loopName depth), .code " in ", .code source, .code "]"]
  | .primitive _, source, _ | .any, source, _ | .map, source, _ => [.code source]

def factoryParts (maker : List Part) : List Part :=
  .code "dataclasses.field(default_factory=" :: maker ++ [.code ")"]

def Field.defaultParts? (field : Field) : Option (List Part) :=
  if field.indirect then some [.code "None"]
  else if !field.omitEmpty then none
  else
    match field.ref.target with
    | .enumeration declared =>
      some (factoryParts [.code "lambda: ", .name declared, .code ".NOT_SET"])
    | .raw declared => some (factoryParts [.code "lambda: ", .name declared, .code "()"])
    | .array _ => some (factoryParts [.code "list"])
    | .map => some (factoryParts [.code "dict"])
    | _ => some [.code "None"]

/-! ## Fixed words -/

def annotationWords : List String :=
  ["str", "int", "float", "bool", "Any", "dict[str, Any]", "list[", "]", "\""]

def decodeWords : List String :=
  [".from_dict(", ".from_wire(", ")", "list(", "[", " for ", " in ", "]"]

def defaultWords : List String :=
  ["None", "dataclasses.field(default_factory=", ")", "lambda: ", ".NOT_SET", "()", "list", "dict"]

/-- The code in what decodes a source: fixed words, the source, and the names of loop variables. -/
def IsDecodeWord (source word : String) : Prop :=
  word ∈ decodeWords ∨ word = source ∨ ∃ depth, word = loopName depth

/-- A text that parts make up: code that is allowed, and names of types whose modules are imported. -/
structure Spells (scope : Scope) (modules : List String) (isWord : String → Prop)
    (types : List Declared) (parts : List Part) (text : String) : Prop where
  joins : joined scope parts = text
  words : ∀ word, .code word ∈ parts → isWord word
  names : ∀ declared, .name declared ∈ parts → declared ∈ types
  modules : ∀ declared, .name declared ∈ parts → qualifiedModules scope declared ⊆ modules

section Spelling

variable (scope : Scope)

theorem nameParts_spell (quoted : Bool) (declared : Declared) :
    Spells scope (qualifiedModules scope declared) (· ∈ annotationWords) [declared]
      (nameParts quoted declared) (quotedIf quoted (qualifiedName scope declared)) := by
  cases quoted with
  | false => constructor <;> simp [nameParts, quotedIf]
  | true => constructor <;> simp [nameParts, quotedIf, annotationWords, String.append_assoc]

theorem annotation_spells (quoted : Bool) (ref : TypeRef) :
    Spells scope (annotationModules scope ref) (· ∈ annotationWords) ref.names
      (annotationParts quoted ref) <| annotation scope quoted ref := by
  induction ref with
  | primitive primitive =>
    cases primitive <;> constructor <;>
      simp [annotationParts, annotation, primitiveName, annotationWords]
  | any => constructor <;> simp [annotationParts, annotation, annotationWords]
  | map => constructor <;> simp [annotationParts, annotation, annotationWords]
  | array item ih =>
    obtain ⟨joins, words, names, modules⟩ := ih
    refine ⟨?_, fun word member => ?_, fun declared member => ?_, fun declared member => ?_⟩
    · simp [annotationParts, annotation, joins, String.append_assoc]
    · simp only [annotationParts, List.cons_append, List.mem_cons, List.mem_append,
        List.not_mem_nil, Part.code.injEq, or_false] at member
      rcases member with rfl | inside | rfl
      · decide
      · exact words word inside
      · decide
    · exact names declared (by simpa [annotationParts] using member)
    · exact modules declared (by simpa [annotationParts] using member)
  | record declared => exact nameParts_spell scope quoted declared
  | enumeration declared => exact nameParts_spell scope quoted declared
  | raw declared => exact nameParts_spell scope quoted declared
  | _ declared meaning =>
    obtain ⟨joins, words, names, modules⟩ := nameParts_spell scope quoted declared
    exact ⟨joins, words, fun other member => by
      rw [List.mem_singleton.mp (names other member)]
      exact List.mem_cons_self, modules⟩

theorem wrapped_ne (before source : String) {after : String} (notEmpty : after ≠ "") :
    before ++ source ++ after ≠ source := by
  intro same
  have lengths := congrArg String.length same
  have positive : 0 < after.length := by
    rw [← String.length_toList, List.length_pos_iff]
    simpa using notEmpty
  rw [String.length_append, String.length_append] at lengths
  omega

/-- Decoding leaves a source as it is exactly for types whose values are passed on unread. -/
theorem decode_eq_source_iff (ref : TypeRef) (source : String) (depth : Nat) :
    decode scope ref source depth = source ↔ passesThrough ref := by
  fun_induction decode scope ref source depth with
  | case1 declared meaning source depth ih => exact ih
  | case2 declared source | case3 declared source | case4 declared source =>
    simp only [passesThrough, TypeRef.target, Bool.false_eq_true, iff_false]
    exact wrapped_ne _ source (by decide)
  | case5 item source depth loop ih =>
    simp only [passesThrough, TypeRef.target, Bool.false_eq_true, iff_false, comprehension]
    split
    · exact wrapped_ne _ source (by decide)
    · exact wrapped_ne _ source (by decide)
  | case6 | case7 | case8 => simp [passesThrough, TypeRef.target]

theorem IsDecodeWord.of_loop {source word : String} {depth : Nat}
    (inLoop : IsDecodeWord (loopName depth) word) : IsDecodeWord source word := by
  rcases inLoop with fixed | rfl | loops
  · exact .inl fixed
  · exact .inr (.inr ⟨depth, rfl⟩)
  · exact .inr (.inr loops)

/-- A call of a class's method on a source. -/
theorem call_spells {method : String} (known : method ∈ decodeWords) (declared : Declared)
    (source : String) :
    Spells scope (qualifiedModules scope declared) (IsDecodeWord source) [declared]
      [.name declared, .code method, .code source, .code ")"]
      (qualifiedName scope declared ++ method ++ source ++ ")") := by
  refine ⟨?_, fun word member => ?_, fun other member => ?_, fun other member => ?_⟩
  · simp [String.append_assoc]
  · simp only [List.mem_cons, reduceCtorEq, Part.code.injEq, List.not_mem_nil, false_or,
      or_false] at member
    rcases member with rfl | rfl | rfl
    · exact .inl known
    · exact .inr (.inl rfl)
    · exact .inl (by decide)
  · simpa using member
  · have same : other = declared := by simpa using member
    exact same ▸ List.Subset.refl _

theorem decode_spells (ref : TypeRef) (source : String) (depth : Nat) :
    Spells scope (decodeModules scope ref) (IsDecodeWord source) ref.names
      (decodeParts ref source depth) (decode scope ref source depth) := by
  fun_induction decode scope ref source depth with
  | case1 declared meaning source depth ih =>
    obtain ⟨joins, words, names, modules⟩ := ih
    exact ⟨joins, words, fun other member => List.mem_cons_of_mem _ (names other member), modules⟩
  | case2 declared source | case3 declared source | case4 declared source =>
    exact call_spells scope (by decide) declared source
  | case5 item source depth loop ih =>
    obtain ⟨joins, words, names, modules⟩ := ih
    have same := decode_eq_source_iff scope item loop (depth + 1)
    unfold decodeParts comprehension
    by_cases through : passesThrough item
    · rw [if_pos through, if_pos (same.mpr through)]
      refine ⟨by simp [String.append_assoc], fun word member => ?_, by simp, by simp⟩
      simp only [List.mem_cons, Part.code.injEq, List.not_mem_nil, or_false] at member
      rcases member with rfl | rfl | rfl
      · exact .inl (by decide)
      · exact .inr (.inl rfl)
      · exact .inl (by decide)
    · rw [if_neg through, if_neg (mt same.mp through)]
      refine ⟨?_, fun word member => ?_, fun declared member => ?_, fun declared member => ?_⟩
      · simp [joins, loop, String.append_assoc]
      · simp only [List.cons_append, List.mem_cons, List.mem_append, Part.code.injEq,
          List.not_mem_nil, or_false] at member
        rcases member with rfl | inside | rfl | rfl | rfl | rfl | rfl
        · exact .inl (by decide)
        · exact (words word inside).of_loop
        · exact .inl (by decide)
        · exact .inr (.inr ⟨depth, rfl⟩)
        · exact .inl (by decide)
        · exact .inr (.inl rfl)
        · exact .inl (by decide)
      · exact names declared (by simpa using member)
      · exact modules declared (by simpa using member)
  | case6 | case7 | case8 =>
    refine ⟨by simp [decodeParts], fun word member => ?_, by simp [decodeParts],
      by simp [decodeParts]⟩
    exact .inr (.inl (by simpa [decodeParts] using member))

theorem factory_spells {before after : String} (known : before ∈ defaultWords)
    (alsoKnown : after ∈ defaultWords) (declared : Declared) :
    Spells scope (qualifiedModules scope declared) (· ∈ defaultWords) [declared]
      (factoryParts [.code before, .name declared, .code after])
      (Field.factory (before ++ qualifiedName scope declared ++ after)) := by
  refine ⟨?_, fun word member => ?_, fun other member => ?_, fun other member => ?_⟩
  · unfold Field.factory factoryParts
    simp only [List.cons_append, List.nil_append, joined_cons, joined_nil, text_code, text_name,
      String.append_empty]
    simp only [String.append_assoc]
  · simp only [factoryParts, List.cons_append, List.nil_append, List.mem_cons, reduceCtorEq,
      Part.code.injEq, List.not_mem_nil, false_or, or_false] at member
    rcases member with rfl | rfl | rfl | rfl
    · simp [defaultWords]
    · exact known
    · exact alsoKnown
    · simp [defaultWords]
  · simpa [factoryParts] using member
  · have same : other = declared := by simpa [factoryParts] using member
    exact same ▸ List.Subset.refl _

/-- A default that names no type. -/
theorem fixed_spells {word : String} (known : word ∈ defaultWords) (modules : List String)
    (types : List Declared) :
    Spells scope modules (· ∈ defaultWords) types [.code word] word ∧
      Spells scope modules (· ∈ defaultWords) types (factoryParts [.code word])
        (Field.factory word) := by
  refine ⟨⟨by simp, by simpa using known, by simp, by simp⟩, ?_, fun other member => ?_,
    by simp [factoryParts], by simp [factoryParts]⟩
  · unfold Field.factory factoryParts
    simp only [List.cons_append, List.nil_append, joined_cons, joined_nil, text_code,
      String.append_empty, String.append_assoc]
  · simp only [factoryParts, List.cons_append, List.nil_append, List.mem_cons, Part.code.injEq,
      List.not_mem_nil, or_false] at member
    rcases member with rfl | rfl | rfl
    · simp [defaultWords]
    · exact known
    · simp [defaultWords]

theorem Spells.of_target {modules : List String} {isWord : String → Prop} {declared : Declared}
    {parts : List Part} {text : String} {ref : TypeRef} (names : ref.target.names = [declared])
    (spells : Spells scope modules isWord [declared] parts text) :
    Spells scope modules isWord ref.names parts text := by
  refine ⟨spells.joins, spells.words, fun other member => ?_, spells.modules⟩
  have inTarget := spells.names other member
  rw [← names] at inTarget
  exact ref.names_target_subset inTarget

theorem default?_spells {field : Field} {text : String}
    (given : field.default? scope = some text) :
    ∃ parts, field.defaultParts? = some parts ∧
      Spells scope (field.defaultModules scope) (· ∈ defaultWords) field.ref.names parts text := by
  unfold Field.default? at given
  unfold Field.defaultParts? Field.defaultModules
  by_cases indirect : field.indirect
  · rw [if_pos indirect] at given
    cases given
    rw [if_pos indirect]
    exact ⟨_, rfl, (fixed_spells scope (by decide) _ _).1⟩
  by_cases present : field.omitEmpty
  · simp only [indirect, present, Bool.false_eq_true, if_false, Bool.not_true, Bool.or_false]
      at given ⊢
    cases target : field.ref.target with
    | enumeration declared | raw declared =>
      rw [target] at given
      cases given
      refine ⟨_, rfl, .of_target scope (by rw [target]; rfl) ?_⟩
      exact factory_spells scope (by simp [defaultWords]) (by simp [defaultWords]) declared
    | array | map =>
      rw [target] at given
      cases given
      exact ⟨_, rfl, (fixed_spells scope (by simp [defaultWords]) _ _).2⟩
    | _ =>
      rw [target] at given
      cases given
      exact ⟨_, rfl, (fixed_spells scope (by simp [defaultWords]) _ _).1⟩
  · simp [indirect, present] at given

end Spelling

/-! ## Names that are seen and defined -/

/-- The name of a declared type as a scope sees it: a bare class name of the scope's own domain, or
one behind the module of another domain, which is imported. -/
def Visible (scope : Scope) (modules : List String) (declared : Declared) : Prop :=
  (scope = some declared.domain ∧ qualifiedName scope declared = declared.className) ∨
    (scope ≠ some declared.domain ∧
      qualifiedName scope declared =
        Naming.moduleName declared.domain ++ "." ++ declared.className ∧
      Naming.moduleName declared.domain ∈ modules)

/-- A declared type is that of a domain, and whenever the code of the types module of a domain that
declares it is complete, it holds a line that defines the type's class name. -/
def IsDefined (domains : List Domain) (index : TypeIndex) (declared : Declared) : Prop :=
  (∃ domain ∈ domains, DeclaredBy domain declared) ∧
    ∀ domain ∈ domains, DeclaredBy domain declared → ∀ runtimeModule edits,
      typesEdits index runtimeModule domain = .ok edits → ∀ buffer : Buffer,
        ∃ line ∈ (buffer.applyAll edits).lines, IsDefinition declared.className line

theorem visible_of_modules {scope : Scope} {modules : List String} {declared : Declared}
    (imported : qualifiedModules scope declared ⊆ modules) : Visible scope modules declared := by
  unfold qualifiedModules isOwn at imported
  unfold Visible qualifiedName isOwn
  by_cases own : scope = some declared.domain
  · rw [if_pos (by simpa using own)]
    exact .inl ⟨own, rfl⟩
  · rw [if_neg (by simpa using own)] at imported ⊢
    exact .inr ⟨own, rfl, imported List.mem_cons_self⟩

theorem isDefined_of_names {domains : List Domain} {index : TypeIndex} {declared : Declared}
    (classified : Classified domains index) (named : index.Names declared) :
    IsDefined domains index declared := by
  refine ⟨classified.exists_declaring named, ?_⟩
  intro domain _ declares runtimeModule edits made buffer
  obtain ⟨declaration, member, rfl⟩ := declares
  exact (defines_typesEdits member made).exists_line buffer

/-- A text that parts make up, in which every declared type is written by a name that is seen and
defined. -/
structure WellNamed (domains : List Domain) (index : TypeIndex) (scope : Scope)
    (modules : List String) (isWord : String → Prop) (parts : List Part) (text : String) : Prop where
  joins : joined scope parts = text
  words : ∀ word, .code word ∈ parts → isWord word
  visible : ∀ declared, .name declared ∈ parts → Visible scope modules declared
  defined : ∀ declared, .name declared ∈ parts → IsDefined domains index declared

theorem Spells.wellNamed {domains : List Domain} {index : TypeIndex} {scope : Scope}
    {modules : List String} {isWord : String → Prop} {types : List Declared} {parts : List Part}
    {text : String} (spells : Spells scope modules isWord types parts text)
    (defined : ∀ declared ∈ types, IsDefined domains index declared) :
    WellNamed domains index scope modules isWord parts text where
  joins := spells.joins
  words := spells.words
  visible := fun declared member => visible_of_modules (spells.modules declared member)
  defined := fun declared member => defined declared (spells.names declared member)

/-- Whatever an expression of accepted domains resolves to, the declared types in its annotation, in
the code that decodes it and in a default for it are written by names that are seen and defined. -/
theorem declared_names_are_imported_and_defined {domains : List Domain} {index : TypeIndex}
    (accepted : classify domains = .ok index) {domain : String} {owner : Option String}
    {expression : TypeExpression} {ref : TypeRef}
    (resolved : index.resolve domain owner expression = .ok ref) (scope : Scope) :
    (∀ quoted, WellNamed domains index scope (annotationModules scope ref) (· ∈ annotationWords)
      (annotationParts quoted ref) <| annotation scope quoted ref) ∧
    (∀ source depth, WellNamed domains index scope (decodeModules scope ref) (IsDecodeWord source)
      (decodeParts ref source depth) (decode scope ref source depth)) ∧
    ∀ field : Field, field.ref = ref → ∀ text, field.default? scope = some text →
      ∃ parts, field.defaultParts? = some parts ∧
        WellNamed domains index scope (field.defaultModules scope) (· ∈ defaultWords) parts text := by
  have defined : ∀ declared ∈ ref.names, IsDefined domains index declared :=
    fun declared member => isDefined_of_names (.of_classify accepted)
      (TypeIndex.names_of_resolve resolved declared member)
  refine ⟨fun quoted => (annotation_spells scope quoted ref).wellNamed defined,
    fun source depth => (decode_spells scope ref source depth).wellNamed defined, ?_⟩
  rintro field rfl text given
  obtain ⟨parts, made, spells⟩ := default?_spells scope given
  exact ⟨parts, made, spells.wellNamed defined⟩

def scaleUnit : TypeDeclaration :=
  ⟨.plain ⟨none, some "string", none, some ["volt", "watt"]⟩, "Unit", none, false, false⟩

/-- A domain with an enumeration. -/
def scale : Domain := ⟨"Scale", none, false, false, [scaleUnit], [], []⟩

def meterUnit : TypeDeclaration :=
  ⟨.plain ⟨none, none, some "Scale.Unit", none⟩, "Unit", none, false, false⟩

def meterUnits : TypeDeclaration :=
  ⟨.withItems ⟨none, some "array", none, none⟩ (.plain ⟨none, none, some "Unit", none⟩), "Units",
    none, false, false⟩

/-- A domain with an alias of a type of another domain, and an array of it. -/
def meter : Domain := ⟨"Meter", none, false, false, [meterUnit, meterUnits], [], []⟩

def meterIndex : TypeIndex :=
  ⟨[⟨"Meter", "Unit", .alias, true, meterUnit⟩, ⟨"Meter", "Units", .alias, true, meterUnits⟩,
    ⟨"Scale", "Unit", .enumeration, true, scaleUnit⟩]⟩

def unitType : TypeRef :=
  .alias ⟨"Meter", "Meter.Unit", "Unit"⟩ (.enumeration ⟨"Scale", "Scale.Unit", "Unit"⟩)

/-- Where meters are read, both types that are called units are seen and defined. -/
theorem meter_unit_names :
    classify [meter, scale] = .ok meterIndex ∧
      meterIndex.resolve "Meter" none meterUnits.expression = .ok (.array unitType) ∧
      WellNamed [meter, scale] meterIndex (some "Meter") ["scale"] (IsDecodeWord "data")
        [.code "[", .name ⟨"Scale", "Scale.Unit", "Unit"⟩, .code ".from_wire(", .code "item0",
          .code ")", .code " for ", .code "item0", .code " in ", .code "data", .code "]"]
        "[scale.Unit.from_wire(item0) for item0 in data]" := by
  have accepted : classify [meter, scale] = .ok meterIndex := by decide +kernel
  have resolved : meterIndex.resolve "Meter" none meterUnits.expression = .ok (.array unitType) := by
    decide +kernel
  exact ⟨accepted, resolved,
    (declared_names_are_imported_and_defined accepted resolved (some "Meter")).2.1 "data" 0⟩

end ProtocolGen.Emission
