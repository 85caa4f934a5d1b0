import ProtocolGen.Naming
import ProtocolGen.Types.Index

/-!
# Resolved types

The second phase of type resolution turns an expression into the type it stands for, with every
alias on the way expanded. An expression leads to one type after the other, so the only way not to
end is to come back to an alias, and that takes an array alias, since references alone are checked
for cycles in the first phase. Along a way that ends no alias comes twice; so as many expansions
as there are types always suffice, and running out of them shows that there is no end.
-/

set_option autoImplicit false

namespace ProtocolGen.Types

structure Declared where
  domain : String
  key : String
  className : String
  deriving DecidableEq, Repr

inductive TypeRef where
  | primitive (primitive : Primitive)
  | any
  | map
  | array (item : TypeRef)
  | record (declared : Declared)
  | enumeration (declared : Declared)
  | raw (declared : Declared)
  | alias (declared : Declared) (meaning : TypeRef)
  deriving DecidableEq, Repr

namespace TypeRef

/-- The type that aliases stand for, which decides how values are encoded. -/
def target : TypeRef → TypeRef
  | .alias _ meaning => meaning.target
  | other => other

def declared? : TypeRef → Option Declared
  | .record declared | .enumeration declared | .raw declared | .alias declared _ => some declared
  | _ => none

def part? : TypeRef → Option TypeRef
  | .array item => some item
  | .alias _ meaning => some meaning
  | _ => none

end TypeRef

inductive Failure where
  | refused (refusal : Refusal)
  /-- The type contains itself by way of array aliases. -/
  | endless
  deriving DecidableEq, Repr

/-- Resolves an expression, given what keys resolve to. The owner is the name of the property that
the expression belongs to, which the items of an array have lost. -/
def resolveExpression (resolveKey : String → Except Failure TypeRef) (domain : String) :
    Option String → TypeExpression → Except Failure TypeRef
  | owner, .plain facets =>
    ofFacets owner facets (.error (.refused ⟨domain, owner.getD "?", .arrayWithoutItems⟩))
  | owner, .withItems facets items =>
    ofFacets owner facets ((resolveExpression resolveKey domain none items).map .array)
where
  /-- Resolves facets, given what an array of the items resolves to. -/
  ofFacets (owner : Option String) (facets : Facets) (ofItems : Except Failure TypeRef) :
      Except Failure TypeRef :=
    match facets.reference.filter (· != "") with
    | some reference => resolveKey (qualify domain reference)
    | none =>
      match facets.type with
      | some "array" => ofItems
      | some "any" => .ok .any
      | some "object" => .ok .map
      | type =>
        match type.bind Primitive.ofWord? with
        | some primitive => .ok (.primitive primitive)
        | none => .error (.refused ⟨domain, owner.getD "?", .unknownType type⟩)

/-- What a declared type's name resolves to, given what it means if it is an alias. -/
def nameType (info : TypeInfo) (meaning : Unit → Except Failure TypeRef) :
    Except Failure TypeRef :=
  let declared : Declared := ⟨info.domain, info.key, Naming.className info.id⟩
  match info.kind with
  | .record => .ok (.record declared)
  | .enumeration => .ok (.enumeration declared)
  | .raw => .ok (.raw declared)
  | .alias => (meaning ()).map (.alias declared)

/-- Resolves a key with a bound on the aliases expanded. The domain and part are those of the
expression that refers to the key. -/
def resolveKeyWithin (index : TypeIndex) : Nat → String → String → String → Except Failure TypeRef
  | expansions, domain, part, key =>
    match index.find? key with
    | none => .error (.refused ⟨domain, part, .unknownReference key⟩)
    | some info =>
      nameType info fun _ =>
        match expansions with
        | 0 => .error .endless
        | expansions + 1 =>
          resolveExpression
            (fun key => resolveKeyWithin index expansions info.domain key key) info.domain none
            info.declaration.expression

/-- The bound on alias expansions that an ending way cannot exceed. -/
def TypeIndex.expansions (index : TypeIndex) : Nat := index.types.length

def TypeIndex.named (index : TypeIndex) (key domain : String) : Except Failure TypeRef :=
  resolveKeyWithin index index.expansions domain key key

/-- Resolves an expression of a domain with a bound on the aliases expanded on each way. The owner is
the property it belongs to, if any. -/
def TypeIndex.resolveWithin (index : TypeIndex) (expansions : Nat) (domain : String)
    (owner : Option String) (expression : TypeExpression) : Except Failure TypeRef :=
  resolveExpression
    (fun key =>
      let outermost := expression.reference?.isSome
      resolveKeyWithin index expansions domain (if outermost then owner.getD key else key) key)
    domain owner expression

def TypeIndex.resolve (index : TypeIndex) (domain : String) (owner : Option String)
    (expression : TypeExpression) : Except Failure TypeRef :=
  index.resolveWithin index.expansions domain owner expression

/-- Whether an optional value of a type needs a state of its own for absence. -/
def TypeIndex.needsIndirection (index : TypeIndex) (ref : TypeRef) : Bool :=
  let byKind :=
    match ref with
    | .any | .array _ | .map | .enumeration _ | .raw _ => false
    | _ => true
  match ref.declared? with
  | none => byKind
  | some declared =>
    match index.find? declared.key with
    | some info => !info.direct
    | none => byKind

end ProtocolGen.Types
