import ProtocolGen.Emission.Record

/-!
# Types modules

The module of a domain's declared types: a record class, an enumeration class, a class of unread
payloads or an alias for each, in the order of declaration.
-/

set_option autoImplicit false

namespace ProtocolGen.Emission

open ProtocolGen.Types ProtocolGen.Source

/-- The package that the types modules of all domains share, as seen from one of them. -/
def siblingPackage : String := "."

/-- The class of an enumeration. Its labels are a tuple, and its members are numbered from one in
their order; zero is the unset member. -/
def enumerationEdits (runtimeModule name : String) (documentation labels : List String) :
    List Edit :=
  let values := ", ".intercalate (labels.map Text.literalOf)
  let comma := if labels.length = 1 then "," else ""
  let members := (Naming.enumMemberNames labels).zipIdx 1
  [.declare, .require runtimeModule ["WireEnum"], .blank 2,
      .line ("class " ++ name ++ "(WireEnum):") 0, .docstring documentation 1, .blank 1,
      .line ("__labels__ = (" ++ values ++ comma ++ ")") 1, .blank 1,
      .line (Naming.unsetMember ++ " = 0") 1] ++
    members.map fun (member, ordinal) => .line (member ++ " = " ++ toString ordinal) 1

def rawEdits (runtimeModule name : String) (documentation : List String) : List Edit :=
  [.declare, .require runtimeModule ["RawMessage"], .blank 2,
    .line ("class " ++ name ++ "(RawMessage):") 0, .docstring documentation 1]

def hasPart (part text : String) : Bool := 1 < (Text.splitOn part.toList text.toList).length

def aliasEdits (domain name : String) (documentation : List String) (target : TypeRef) :
    List Edit :=
  let scope : Scope := some domain
  let written := annotation scope true target
  [.declare, .require "typing" ["TypeAlias"]] ++
    requireModules siblingPackage (annotationModules scope target) ++
    (if hasPart "Any" written then [.require "typing" ["Any"]] else []) ++
    [.blank 2, .comment documentation 0 "#", .line (name ++ ": TypeAlias = " ++ written) 0]

def declarationEdits (index : TypeIndex) (runtimeModule domain : String)
    (declaration : TypeDeclaration) : Except Failure (List Edit) :=
  let name := Naming.className declaration.id
  let documentation := declaration.expression.describe :: declaration.notes
  match (index.find? (keyOf domain declaration.id)).map TypeInfo.kind with
  | some .record => do
    let scope : Scope := some domain
    let fields ← fieldsOf index scope domain name declaration.propertyList
    pure (recordEdits scope siblingPackage name documentation fields [])
  | some .enumeration =>
    pure (enumerationEdits runtimeModule name documentation
      (declaration.expression.facets.enumeration.getD []))
  | some .raw => pure (rawEdits runtimeModule name documentation)
  | _ => do
    let target ← index.resolve domain none declaration.expression
    pure (aliasEdits domain name documentation target)

/-- The code of a domain's types module. A domain without types has none. -/
def typesEdits (index : TypeIndex) (runtimeModule : String) (domain : Domain) :
    Except Failure (List Edit) :=
  if domain.types.isEmpty then .ok []
  else
    collectEdits [.header (some ("Types of the " ++ domain.name ++ " domain."))]
      (declarationEdits index runtimeModule domain.name) domain.types

end ProtocolGen.Emission
