import ProtocolGen.Protocol

/-!
# The index of declared types

The first of two phases of type resolution. Every declared type of every domain gets a kind, every
type expression is checked to lead to something known, and every type is marked as direct when its
representation has an empty state of its own. Only then are expressions resolved, since a property
may refer to a type of a domain that comes later.

Two declarations may share a key. The index then has one entry, at the place of the first and with
the content of the last.
-/

set_option autoImplicit false

namespace ProtocolGen.Types

inductive Primitive where
  | string
  | integer
  | number
  | boolean
  deriving DecidableEq, Repr

def Primitive.ofWord? : String → Option Primitive
  | "string" => some .string
  | "integer" => some .integer
  | "number" => some .number
  | "boolean" => some .boolean
  | _ => none

inductive DeclaredKind where
  | record
  | enumeration
  /-- An object without listed properties, whose content is passed on unread. -/
  | raw
  | alias
  deriving DecidableEq, Repr

/-- Why types cannot be classified or resolved: the domain, the part of it, and the cause. -/
inductive Cause where
  | unsupportedEnumType (type : Option String)
  | unknownType (type : Option String)
  | unknownReference (reference : String)
  | arrayWithoutItems
  | aliasCycle (keys : List String)
  deriving DecidableEq, Repr

structure Refusal where
  domain : String
  part : String
  cause : Cause
  deriving DecidableEq, Repr

def shownWord (type : Option String) : String := type.getD "None"

def Cause.message : Cause → String
  | .unsupportedEnumType type => "unsupported enum type: " ++ shownWord type
  | .unknownType type => "unknown type: " ++ shownWord type
  | .unknownReference reference => "unknown reference: " ++ reference
  | .arrayWithoutItems => "array without items"
  | .aliasCycle keys => "alias cycle: " ++ " -> ".intercalate keys

def complaintAbout (domain part words : String) : String := domain ++ "." ++ part ++ ": " ++ words

def Refusal.message (refusal : Refusal) : String :=
  complaintAbout refusal.domain refusal.part refusal.cause.message

def keyOf (domain id : String) : String := domain ++ "." ++ id

/-- The key that a reference in a domain means. A reference with a dot names its domain. -/
def qualify (domain reference : String) : String :=
  if reference.toList.contains '.' then reference else keyOf domain reference

def kindOf (domain : String) (declaration : TypeDeclaration) : Except Refusal DeclaredKind :=
  let expression := declaration.expression
  if expression.reference?.isSome then .ok .alias
  else if expression.labels?.isSome then
    if expression.type = some "string" then .ok .enumeration
    else .error ⟨domain, declaration.id, .unsupportedEnumType expression.type⟩
  else
    match expression.type with
    | some "object" => .ok (if declaration.propertyList.isEmpty then .raw else .record)
    | some "array" | some "any" => .ok .alias
    | type =>
      if (type.bind Primitive.ofWord?).isSome then .ok .alias
      else .error ⟨domain, declaration.id, .unknownType type⟩

/-- A declaration with its domain and the kind that it has there. -/
structure Shape where
  domain : String
  declaration : TypeDeclaration
  kind : DeclaredKind
  kind_eq : kindOf domain declaration = .ok kind
  deriving DecidableEq, Repr

def Shape.of (domain : String) (declaration : TypeDeclaration) : Except Refusal Shape :=
  match kind_eq : kindOf domain declaration with
  | .ok kind => .ok ⟨domain, declaration, kind, kind_eq⟩
  | .error refusal => .error refusal

def Shape.key (shape : Shape) : String := keyOf shape.domain shape.declaration.id

/-- Shapes with one more: one of a known key takes the place of the known one. -/
def insertShape (shape : Shape) : List Shape → List Shape
  | [] => [shape]
  | known :: shapes =>
    if known.key = shape.key then shape :: shapes else known :: insertShape shape shapes

def insertShapes (added shapes : List Shape) : List Shape :=
  added.foldl (fun shapes shape => insertShape shape shapes) shapes

/-- The declarations of all domains with the names of their domains, in order. -/
def declarationsOf (domains : List Domain) : List (String × TypeDeclaration) :=
  domains.flatMap fun domain => domain.types.map fun declaration => (domain.name, declaration)

def declaredShapes (domains : List Domain) : Except Refusal (List Shape) :=
  (declarationsOf domains).mapM fun (domain, declaration) => Shape.of domain declaration

/-- The shapes of all keys, in the order the keys are first declared. -/
def shapesOf (domains : List Domain) : Except Refusal (List Shape) := do
  let declared ← declaredShapes domains
  pure (insertShapes declared [])

def namedProperties (owner : String) (properties : List Property) :
    List (String × TypeExpression) :=
  properties.map fun property => (owner ++ "." ++ property.name, property.expression)

/-- The type expressions of a declaration: itself when it is an array, and its properties. -/
def declarationExpressions (declaration : TypeDeclaration) : List (String × TypeExpression) :=
  let own :=
    if declaration.expression.type = some "array" && declaration.expression.reference?.isNone then
      [(declaration.id, declaration.expression)]
    else []
  own ++ namedProperties declaration.id declaration.propertyList

/-- The type expressions of a domain, with the names that messages give them. -/
def domainExpressions (domain : Domain) : List (String × TypeExpression) :=
  domain.types.flatMap declarationExpressions ++
    (domain.commands.flatMap fun command =>
      namedProperties command.name (command.parameters ++ command.returns)) ++
    domain.events.flatMap fun event => namedProperties event.name event.parameters

/-- Checks that an expression leads to a known key or to a type that needs none. -/
def checkExpression (known : String → Bool) (domain part : String) :
    TypeExpression → Except Refusal Unit
  | .plain facets => checkFacets facets (.error ⟨domain, part, .arrayWithoutItems⟩)
  | .withItems facets items => checkFacets facets (checkExpression known domain part items)
where
  /-- Checks facets, given the verdict on the items. -/
  checkFacets (facets : Facets) (ofItems : Except Refusal Unit) : Except Refusal Unit :=
    match facets.reference.filter (· != "") with
    | some reference =>
      if known (qualify domain reference) then .ok ()
      else .error ⟨domain, part, .unknownReference reference⟩
    | none =>
      match facets.type with
      | some "array" => ofItems
      | some "any" | some "object" => .ok ()
      | type =>
        if (type.bind Primitive.ofWord?).isSome then .ok ()
        else .error ⟨domain, part, .unknownType type⟩

def findShape? (shapes : List Shape) (key : String) : Option Shape :=
  shapes.find? fun shape => shape.key == key

def checkDomains (shapes : List Shape) (domains : List Domain) : Except Refusal Unit :=
  domains.forM fun domain =>
    (domainExpressions domain).forM fun (part, expression) =>
      checkExpression (fun key => (findShape? shapes key).isSome) domain.name part expression

def isDirectWord (type : Option String) : Bool := type = some "array" || type = some "any"

/-- The keys that are settled, each with whether its type is direct. -/
abbrev Memo := List (String × Bool)

def Memo.settle (memo : Memo) (key : String) (direct : Bool) : Bool × Memo :=
  (direct, (key, direct) :: memo)

def unvisited (shapes trail : List Shape) : List Shape :=
  shapes.filter fun shape => !(trail.map Shape.key).contains shape.key

theorem unvisited_cons_length_lt {shapes trail : List Shape} {shape : Shape}
    (member : shape ∈ shapes) (fresh : shape.key ∉ trail.map Shape.key) :
    (unvisited shapes (shape :: trail)).length < (unvisited shapes trail).length := by
  have narrowed : unvisited shapes (shape :: trail) =
      (unvisited shapes trail).filter fun other => other.key != shape.key := by
    simp only [unvisited, List.filter_filter, List.map_cons, List.contains_cons, Bool.not_or, bne]
  rw [narrowed, List.length_filter_lt_length_iff_exists]
  refine ⟨shape, ?_, by simp⟩
  simpa [unvisited, member] using fresh

@[simp] theorem findShape?_nil (key : String) : findShape? [] key = none := rfl

theorem findShape?_cons (shape : Shape) (shapes : List Shape) (key : String) :
    findShape? (shape :: shapes) key =
      if shape.key = key then some shape else findShape? shapes key := by
  by_cases same : shape.key = key <;> simp [findShape?, same]

theorem mem_of_findShape? {shapes : List Shape} {key : String} {shape : Shape}
    (found : findShape? shapes key = some shape) : shape ∈ shapes :=
  List.mem_of_find?_eq_some found

/-- The refusal of a trail that comes back to a shape. It blames the shape that the trail starts
from. The trail holds the shapes on the way, the last one first. -/
def cycleRefusal (trail : List Shape) (shape : Shape) : Refusal :=
  let start := trail.getLastD shape
  ⟨start.domain, start.declaration.id, .aliasCycle ((shape :: trail).reverse.map Shape.key)⟩

/-- Whether a shape's type is direct, by following references, with all that is settled then. A
trail never holds a shape twice, so there are ever fewer shapes to come to. -/
def directOf (shapes : List Shape) (memo : Memo) (trail : List Shape) (shape : Shape)
    (member : shape ∈ shapes) : Except Refusal (Bool × Memo) :=
  match memo.lookup shape.key with
  | some direct => .ok (direct, memo)
  | none =>
    if repeated : shape.key ∈ trail.map Shape.key then .error (cycleRefusal trail shape)
    else
      match shape.kind with
      | .record => .ok (memo.settle shape.key false)
      | .enumeration | .raw => .ok (memo.settle shape.key true)
      | .alias =>
        match shape.declaration.expression.reference? with
        | none => .ok (memo.settle shape.key (isDirectWord shape.declaration.expression.type))
        | some reference =>
          match found : findShape? shapes (qualify shape.domain reference) with
          | none => .error ⟨shape.domain, shape.declaration.id, .unknownReference reference⟩
          | some target =>
            have := unvisited_cons_length_lt member repeated
            (directOf shapes memo (shape :: trail) target (mem_of_findShape? found)).map
              fun (direct, memo) => memo.settle shape.key direct
termination_by (unvisited shapes trail).length

structure TypeInfo where
  domain : String
  id : String
  kind : DeclaredKind
  direct : Bool
  declaration : TypeDeclaration
  deriving DecidableEq, Repr

def TypeInfo.key (info : TypeInfo) : String := keyOf info.domain info.id

structure TypeIndex where
  types : List TypeInfo
  deriving DecidableEq, Repr

def TypeIndex.find? (index : TypeIndex) (key : String) : Option TypeInfo :=
  index.types.find? fun info => info.key == key

def Shape.info (shape : Shape) (direct : Bool) : TypeInfo :=
  ⟨shape.domain, shape.declaration.id, shape.kind, direct, shape.declaration⟩

/-- Classifies shapes one after the other, given what is settled before. -/
def classifyShapes (shapes : List Shape) :
    List { shape : Shape // shape ∈ shapes } → Memo → Except Refusal (List TypeInfo)
  | [], _ => .ok []
  | ⟨shape, member⟩ :: rest, memo => do
    let (direct, memo) ← directOf shapes memo [] shape member
    let types ← classifyShapes shapes rest memo
    pure (shape.info direct :: types)

/-- Classifies every declared type, after checking every expression. -/
def classify (domains : List Domain) : Except Refusal TypeIndex := do
  let shapes ← shapesOf domains
  checkDomains shapes domains
  let types ← classifyShapes shapes shapes.attach []
  pure ⟨types⟩

end ProtocolGen.Types
