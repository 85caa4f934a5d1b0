import ProtocolGen.Proofs.Document.Shapes

/-!
# The schema of protocol documents

The format of documents in the keywords of JSON Schema, as Draft 2020-12 has them. A schema is a list of
keywords, each of which a value must satisfy. A keyword asks something of values of its own kind only:
members are required of tables and looked at in tables, items are looked at in lists, and lengths are
those of texts, counted in code points. What the schema accepts are the documents of the right shape.
-/

set_option autoImplicit false

namespace ProtocolGen.Document

/-- The schemas that others refer to. -/
inductive Definition where
  | typeSpec
  | property
  | properties
  | typeDef
  | command
  | event
  | domain

inductive Keyword where
  | type (kind : Kind)
  | required (names : List String)
  | minLength (least : Nat)
  | properties (members : List (String × List Keyword))
  | items (schema : List Keyword)
  | allOf (schemas : List (List Keyword))
  | anyOf (schemas : List (List Keyword))
  | ref (definition : Definition)

abbrev Schema := List Keyword

def textSchema : Schema := [.type .string]

def nameSchema : Schema := [.type .string, .minLength 1]

def flagSchema : Schema := [.type .boolean]

def arrayOf (definition : Definition) : Schema := [.type .array, .items [.ref definition]]

def Definition.schema : Definition → Schema
  | .typeSpec =>
    [.type .object,
      .properties [("description", textSchema), ("type", textSchema), ("$ref", nameSchema),
        ("items", [.ref .typeSpec]), ("enum", [.type .array, .items textSchema])],
      .anyOf [[.required ["type"]], [.required ["$ref"]]]]
  | .property =>
    [.allOf [[.ref .typeSpec],
      [.type .object, .required ["name"],
        .properties [("name", nameSchema), ("optional", flagSchema), ("experimental", flagSchema),
          ("deprecated", flagSchema)]]]]
  | .properties => arrayOf .property
  | .typeDef =>
    [.allOf [[.ref .typeSpec],
      [.type .object, .required ["id"],
        .properties [("id", nameSchema), ("properties", [.ref .properties]),
          ("experimental", flagSchema), ("deprecated", flagSchema)]]]]
  | .command =>
    [.type .object, .required ["name"],
      .properties [("name", nameSchema), ("description", textSchema), ("parameters", [.ref .properties]),
        ("returns", [.ref .properties]), ("experimental", flagSchema), ("deprecated", flagSchema)]]
  | .event =>
    [.type .object, .required ["name"],
      .properties [("name", nameSchema), ("description", textSchema), ("parameters", [.ref .properties]),
        ("experimental", flagSchema), ("deprecated", flagSchema)]]
  | .domain =>
    [.type .object, .required ["domain"],
      .properties [("domain", nameSchema), ("description", textSchema), ("experimental", flagSchema),
        ("deprecated", flagSchema), ("types", arrayOf .typeDef), ("commands", arrayOf .command),
        ("events", arrayOf .event)]]

def protocolSchema : Schema :=
  [.type .object, .required ["domains"],
    .properties [("version", [.type .object]), ("domains", arrayOf .domain)]]

/-! ## What keywords mean -/

inductive Keyword.Accepts : Keyword → Data → Prop where
  | type {kind : Kind} {data : Data} (accepts : kind.accepts data) : Accepts (.type kind) data
  | required {names : List String} {data : Data}
      (present : ∀ entries, data = .table entries → ∀ name ∈ names, (data.member? name).isSome) :
      Accepts (.required names) data
  | minLength {least : Nat} {data : Data}
      (long : ∀ text, data = .text text → least ≤ text.length) : Accepts (.minLength least) data
  | properties {members : List (String × Schema)} {data : Data}
      (each : ∀ member ∈ members, ∀ value, data.member? member.1 = some value →
        ∀ keyword ∈ member.2, Accepts keyword value) : Accepts (.properties members) data
  | items {schema : Schema} {data : Data}
      (each : ∀ items, data = .list items → ∀ item ∈ items, ∀ keyword ∈ schema,
        Accepts keyword item) : Accepts (.items schema) data
  | allOf {schemas : List Schema} {data : Data}
      (all : ∀ schema ∈ schemas, ∀ keyword ∈ schema, Accepts keyword data) :
      Accepts (.allOf schemas) data
  | anyOf {schemas : List Schema} {data : Data} {schema : Schema} (one : schema ∈ schemas)
      (accepts : ∀ keyword ∈ schema, Accepts keyword data) : Accepts (.anyOf schemas) data
  | ref {definition : Definition} {data : Data}
      (accepts : ∀ keyword ∈ definition.schema, Accepts keyword data) :
      Accepts (.ref definition) data

def Schema.Accepts (schema : Schema) (data : Data) : Prop := ∀ keyword ∈ schema, keyword.Accepts data

section Keywords

variable {data : Data} {schema : Schema}

@[simp] theorem Schema.accepts_cons {keyword : Keyword} :
    Schema.Accepts (keyword :: schema) data ↔ keyword.Accepts data ∧ Schema.Accepts schema data :=
  List.forall_mem_cons

@[simp] theorem Schema.accepts_nil : Schema.Accepts [] data := List.forall_mem_nil _

theorem Keyword.accepts_type_iff {kind : Kind} :
    (Keyword.type kind).Accepts data ↔ kind.accepts data := by
  constructor
  · intro accepted
    cases accepted with
    | type accepts => exact accepts
  · exact .type

theorem Keyword.accepts_required_iff {names : List String} (table : IsTable data) :
    (Keyword.required names).Accepts data ↔ ∀ name ∈ names, (data.member? name).isSome := by
  obtain ⟨entries, same⟩ := table
  constructor
  · intro accepted
    cases accepted with
    | required present => exact present entries same
  · exact fun present => .required fun _ _ => present

theorem Keyword.accepts_minLength_iff {least : Nat} :
    (Keyword.minLength least).Accepts data ↔ ∀ text, data = .text text → least ≤ text.length := by
  constructor
  · intro accepted
    cases accepted with
    | minLength long => exact long
  · exact .minLength

@[simp] theorem Keyword.accepts_properties_iff {members : List (String × Schema)} :
    (Keyword.properties members).Accepts data ↔
      ∀ member ∈ members, Member member.1 (Schema.Accepts member.2) data := by
  constructor
  · intro accepted
    cases accepted with
    | properties each => exact each
  · exact .properties

theorem Keyword.accepts_items_iff :
    (Keyword.items schema).Accepts data ↔
      ∀ items, data = .list items → ∀ item ∈ items, schema.Accepts item := by
  constructor
  · intro accepted
    cases accepted with
    | items each => exact each
  · exact .items

@[simp] theorem Keyword.accepts_allOf_iff {schemas : List Schema} :
    (Keyword.allOf schemas).Accepts data ↔ ∀ schema ∈ schemas, Schema.Accepts schema data := by
  constructor
  · intro accepted
    cases accepted with
    | allOf all => exact all
  · exact .allOf

@[simp] theorem Keyword.accepts_anyOf_iff {schemas : List Schema} :
    (Keyword.anyOf schemas).Accepts data ↔ ∃ schema ∈ schemas, Schema.Accepts schema data := by
  constructor
  · intro accepted
    cases accepted with
    | anyOf one accepts => exact ⟨_, one, accepts⟩
  · intro accepted
    obtain ⟨schema, one, accepts⟩ := accepted
    exact .anyOf one accepts

@[simp] theorem Keyword.accepts_ref_iff {definition : Definition} :
    (Keyword.ref definition).Accepts data ↔ definition.schema.Accepts data := by
  constructor
  · intro accepted
    cases accepted with
    | ref accepts => exact accepts
  · exact .ref

end Keywords

/-! ## What the schema accepts -/

section Values

variable {schema : Schema} {definition : Definition}

/-- What one keyword accepts, a schema of it alone does. -/
theorem Schema.accepts_of_iff {keyword : Keyword} {Meets : Data → Prop}
    (same : ∀ data, keyword.Accepts data ↔ Meets data) : Schema.Accepts [keyword] = Meets := by
  funext data
  simp [same]

theorem Keyword.accepts_object_iff {data : Data} :
    (Keyword.type .object).Accepts data ↔ IsTable data := by
  rw [Keyword.accepts_type_iff, ← kindFaults_eq_nil_iff, objectFaults_eq_nil_iff]

@[simp] theorem accepts_object : Schema.Accepts [.type .object] = IsTable :=
  Schema.accepts_of_iff fun _ => Keyword.accepts_object_iff

@[simp] theorem accepts_textSchema : textSchema.Accepts = IsText :=
  Schema.accepts_of_iff fun data => by
    rw [Keyword.accepts_type_iff, ← kindFaults_eq_nil_iff, ← textFaults, textFaults_eq_nil_iff]

@[simp] theorem accepts_flagSchema : flagSchema.Accepts = IsFlag :=
  Schema.accepts_of_iff fun data => by
    rw [Keyword.accepts_type_iff, ← kindFaults_eq_nil_iff, ← flagFaults, flagFaults_eq_nil_iff]

@[simp] theorem accepts_ref : Schema.Accepts [.ref definition] = definition.schema.Accepts :=
  Schema.accepts_of_iff fun _ => Keyword.accepts_ref_iff

@[simp] theorem accepts_nameSchema : nameSchema.Accepts = IsName := by
  funext data
  have parts : nameSchema.Accepts data ↔
      textSchema.Accepts data ∧ (Keyword.minLength 1).Accepts data := by
    simp only [nameSchema, textSchema, Schema.accepts_cons, Schema.accepts_nil, and_true]
  rw [parts, accepts_textSchema, Keyword.accepts_minLength_iff, eq_iff_iff]
  constructor
  · intro accepted
    obtain ⟨⟨text, rfl⟩, long⟩ := accepted
    exact ⟨text, rfl, List.ne_nil_of_length_pos (long text rfl)⟩
  · intro name
    obtain ⟨text, rfl, notEmpty⟩ := name
    refine ⟨⟨text, rfl⟩, fun other same => ?_⟩
    cases same
    exact List.length_pos_iff.mpr notEmpty

@[simp] theorem accepts_array :
    Schema.Accepts [.type .array, .items schema] = IsListOf schema.Accepts := by
  funext data
  rw [Schema.accepts_cons, Schema.accepts_cons, Keyword.accepts_type_iff, Keyword.accepts_items_iff,
    eq_iff_iff]
  constructor
  · intro accepted
    obtain ⟨array, each, -⟩ := accepted
    cases data with
    | list items => exact ⟨items, rfl, each items rfl⟩
    | _ => cases array
  · intro list
    obtain ⟨items, rfl, each⟩ := list
    refine ⟨rfl, fun others same => ?_, Schema.accepts_nil⟩
    cases same
    exact each

@[simp] theorem accepts_arrayOf :
    (arrayOf definition).Accepts = IsListOf definition.schema.Accepts := by
  rw [arrayOf, accepts_array, accepts_ref]

/-- What is asked of tables: one member that they must have, and what their members are. -/
theorem accepts_record_iff {name : String} {members : List (String × Schema)} {data : Data} :
    Schema.Accepts [.type .object, .required [name], .properties members] data ↔
      IsTable data ∧ (data.member? name).isSome ∧
        ∀ member ∈ members, Member member.1 member.2.Accepts data := by
  simp only [Schema.accepts_cons, Schema.accepts_nil, and_true, Keyword.accepts_object_iff,
    Keyword.accepts_properties_iff]
  refine and_congr_right fun table => and_congr_left' ?_
  rw [Keyword.accepts_required_iff table, List.forall_mem_singleton]

end Values

section Parts

theorem accepts_typeSpec_iff {data : Data} :
    Definition.typeSpec.schema.Accepts data ↔ IsExpression data := by
  induction data using items_induction with
  | step data ih =>
    have inItems : Member "items" Definition.typeSpec.schema.Accepts data ↔
        Member "items" IsExpression data :=
      ⟨fun holds value found => (ih value found).mp (holds value found),
        fun holds value found => (ih value found).mpr (holds value found)⟩
    rw [IsExpression, forall_within_iff, Definition.schema]
    simp only [Schema.accepts_cons, Schema.accepts_nil, and_true, Keyword.accepts_object_iff,
      Keyword.accepts_properties_iff, Keyword.accepts_anyOf_iff, List.mem_cons, List.not_mem_nil,
      or_false, forall_eq_or_imp, forall_eq, exists_eq_or_imp, exists_eq_left,
      accepts_textSchema, accepts_nameSchema, accepts_array, accepts_ref, inItems]
    have required {name : String} (table : IsTable data) :
        (Keyword.required [name]).Accepts data ↔ (data.member? name).isSome := by
      rw [Keyword.accepts_required_iff table, List.forall_mem_singleton]
    constructor
    · intro accepted
      obtain ⟨table, ⟨description, type, reference, items, enumeration⟩, alternative⟩ := accepted
      rw [required table, required table] at alternative
      exact ⟨⟨table, description, type, reference, enumeration, alternative⟩, items⟩
    · intro shaped
      obtain ⟨⟨table, description, type, reference, enumeration, alternative⟩, items⟩ := shaped
      rw [← required table, ← required table] at alternative
      exact ⟨table, ⟨description, type, reference, items, enumeration⟩, alternative⟩

@[simp] theorem accepts_typeSpec : Definition.typeSpec.schema.Accepts = IsExpression :=
  funext fun _ => propext accepts_typeSpec_iff

/-- A part that is known by the first of its members. -/
theorem accepts_named_iff {name : String} {members : List (String × Schema)} {data : Data} :
    Schema.Accepts [.type .object, .required [name], .properties ((name, nameSchema) :: members)]
        data ↔
      IsTable data ∧ Required name IsName data ∧
        ∀ member ∈ members, Member member.1 member.2.Accepts data := by
  rw [accepts_record_iff, List.forall_mem_cons, accepts_nameSchema, ← required_iff, and_assoc]

/-- A part that is a type expression as well. -/
theorem accepts_extension_iff {name : String} {members : List (String × Schema)} {data : Data} :
    Schema.Accepts [.allOf [[.ref .typeSpec],
        [.type .object, .required [name], .properties ((name, nameSchema) :: members)]]] data ↔
      IsExpression data ∧ Required name IsName data ∧
        ∀ member ∈ members, Member member.1 member.2.Accepts data := by
  rw [Schema.accepts_cons, and_iff_left Schema.accepts_nil, Keyword.accepts_allOf_iff,
    List.forall_mem_cons, List.forall_mem_singleton, accepts_ref, accepts_typeSpec,
    accepts_named_iff]
  exact and_congr_right fun expression => and_iff_right expression.facets.table

@[simp] theorem accepts_property : Definition.property.schema.Accepts = IsProperty := by
  funext data
  refine propext (Iff.trans accepts_extension_iff ?_)
  simp only [List.mem_cons, List.not_mem_nil, or_false, forall_eq_or_imp, forall_eq,
    accepts_flagSchema]
  constructor
  · intro accepted
    obtain ⟨expression, name, optional, experimental, deprecated⟩ := accepted
    exact ⟨⟨experimental, deprecated⟩, expression, name, optional⟩
  · intro property
    obtain ⟨⟨experimental, deprecated⟩, expression, name, optional⟩ := property
    exact ⟨expression, name, optional, experimental, deprecated⟩

@[simp] theorem accepts_properties : Definition.properties.schema.Accepts = IsListOf IsProperty := by
  rw [← accepts_property]
  exact accepts_arrayOf

@[simp] theorem accepts_typeDef : Definition.typeDef.schema.Accepts = IsDeclaration := by
  funext data
  refine propext (Iff.trans accepts_extension_iff ?_)
  simp only [List.mem_cons, List.not_mem_nil, or_false, forall_eq_or_imp, forall_eq,
    accepts_flagSchema, accepts_ref, accepts_properties]
  constructor
  · intro accepted
    obtain ⟨expression, id, properties, experimental, deprecated⟩ := accepted
    exact ⟨⟨experimental, deprecated⟩, expression, id, properties⟩
  · intro declaration
    obtain ⟨⟨experimental, deprecated⟩, expression, id, properties⟩ := declaration
    exact ⟨expression, id, properties, experimental, deprecated⟩

@[simp] theorem accepts_event : Definition.event.schema.Accepts = IsMessage := by
  funext data
  refine propext (Iff.trans accepts_named_iff ?_)
  simp only [List.mem_cons, List.not_mem_nil, or_false, forall_eq_or_imp, forall_eq,
    accepts_textSchema, accepts_flagSchema, accepts_ref, accepts_properties]
  constructor
  · intro accepted
    obtain ⟨table, name, description, parameters, experimental, deprecated⟩ := accepted
    exact ⟨⟨experimental, deprecated⟩, table, name, description, parameters⟩
  · intro message
    obtain ⟨⟨experimental, deprecated⟩, table, name, description, parameters⟩ := message
    exact ⟨table, name, description, parameters, experimental, deprecated⟩

@[simp] theorem accepts_command : Definition.command.schema.Accepts = IsCommand := by
  funext data
  refine propext (Iff.trans accepts_named_iff ?_)
  simp only [List.mem_cons, List.not_mem_nil, or_false, forall_eq_or_imp, forall_eq,
    accepts_textSchema, accepts_flagSchema, accepts_ref, accepts_properties]
  constructor
  · intro accepted
    obtain ⟨table, name, description, parameters, returns, experimental, deprecated⟩ := accepted
    exact ⟨⟨⟨experimental, deprecated⟩, table, name, description, parameters⟩, returns⟩
  · intro command
    obtain ⟨⟨⟨experimental, deprecated⟩, table, name, description, parameters⟩, returns⟩ := command
    exact ⟨table, name, description, parameters, returns, experimental, deprecated⟩

@[simp] theorem accepts_domain : Definition.domain.schema.Accepts = IsDomain := by
  funext data
  refine propext (Iff.trans accepts_named_iff ?_)
  simp only [List.mem_cons, List.not_mem_nil, or_false, forall_eq_or_imp, forall_eq,
    accepts_textSchema, accepts_flagSchema, accepts_arrayOf, accepts_typeDef, accepts_command,
    accepts_event]
  constructor
  · intro accepted
    obtain ⟨table, name, description, experimental, deprecated, types, commands, events⟩ := accepted
    exact ⟨⟨experimental, deprecated⟩, table, name, description, types, commands, events⟩
  · intro domain
    obtain ⟨⟨experimental, deprecated⟩, table, name, description, types, commands, events⟩ := domain
    exact ⟨table, name, description, experimental, deprecated, types, commands, events⟩

/-- The schema accepts the documents of the right shape and nothing else. -/
theorem accepts_protocolSchema_iff {data : Data} :
    protocolSchema.Accepts data ↔ IsDocument data := by
  rw [protocolSchema, accepts_record_iff]
  simp only [List.mem_cons, List.not_mem_nil, or_false, forall_eq_or_imp, forall_eq,
    accepts_object, accepts_arrayOf, accepts_domain]
  constructor
  · intro accepted
    obtain ⟨table, required, version, domains⟩ := accepted
    exact ⟨table, version, required_iff.mp ⟨required, domains⟩⟩
  · intro document
    obtain ⟨table, version, domains⟩ := document
    obtain ⟨required, domains⟩ := required_iff.mpr domains
    exact ⟨table, required, version, domains⟩

end Parts

end ProtocolGen.Document
