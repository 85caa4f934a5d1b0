import ProtocolGen.Proofs.Types.AliasChains

/-!
# The declared types in a resolved one

A resolved type is made of declared types, through the items of arrays and what aliases stand for. Each
of them is an entry of the index that it was resolved with, and so comes from a declaration of some
domain.
-/

set_option autoImplicit false

namespace ProtocolGen.Types

/-- The declared types that a type is made of, aliases before what they stand for. -/
def TypeRef.names : TypeRef → List Declared
  | .primitive _ | .any | .map => []
  | .array item => item.names
  | .record declared | .enumeration declared | .raw declared => [declared]
  | .alias declared meaning => declared :: meaning.names

theorem TypeRef.names_target_subset (ref : TypeRef) : ref.target.names ⊆ ref.names := by
  fun_induction TypeRef.target ref with
  | case1 declared meaning ih => exact List.subset_cons_of_subset declared ih
  | case2 other => exact List.Subset.refl _

def TypeInfo.declared (info : TypeInfo) : Declared :=
  ⟨info.domain, info.key, Naming.className info.id⟩

/-- Whether a declared type is one of an index, under its own key. -/
def TypeIndex.Names (index : TypeIndex) (declared : Declared) : Prop :=
  ∃ info, index.find? declared.key = some info ∧ info.declared = declared

theorem names_of_nameType {holds : Declared → Prop} {info : TypeInfo}
    {meaning : Unit → Except Failure TypeRef} {ref : TypeRef} (own : holds info.declared)
    (inMeaning : ∀ meant, meaning () = .ok meant → ∀ declared ∈ meant.names, holds declared)
    (named : nameType info meaning = .ok ref) : ∀ declared ∈ ref.names, holds declared := by
  unfold nameType at named
  dsimp only at named
  split at named
  · cases named
    exact List.forall_mem_singleton.mpr own
  · cases named
    exact List.forall_mem_singleton.mpr own
  · cases named
    exact List.forall_mem_singleton.mpr own
  · obtain ⟨meant, meaning_eq, rfl⟩ := map_eq_ok_iff.mp named
    exact List.forall_mem_cons.mpr ⟨own, inMeaning meant meaning_eq⟩

section Expressions

variable {holds : Declared → Prop} {resolveKey : String → Except Failure TypeRef}
  (inKeys : ∀ key ref, resolveKey key = .ok ref → ∀ declared ∈ ref.names, holds declared)
  {domain : String} {owner : Option String} {expression : TypeExpression} {ref : TypeRef}

include inKeys

theorem names_of_items
    (inItems : ∀ items item, expression.items? = some items →
      resolveExpression resolveKey domain none items = .ok item →
      ∀ declared ∈ item.names, holds declared)
    (resolved : resolveExpression resolveKey domain owner expression = .ok ref) :
    ∀ declared ∈ ref.names, holds declared := by
  rw [resolveExpression_eq] at resolved
  split at resolved
  · exact inKeys _ _ resolved
  · split at resolved
    · split at resolved
      · next items given =>
        obtain ⟨item, made, rfl⟩ := map_eq_ok_iff.mp resolved
        exact inItems items item given made
      · cases resolved
    · cases resolved
      exact List.forall_mem_nil _
    · cases resolved
      exact List.forall_mem_nil _
    · split at resolved
      · cases resolved
        exact List.forall_mem_nil _
      · cases resolved

/-- What holds of all declared types in what keys resolve to holds of those in an expression's type. -/
theorem names_of_resolveExpression
    (resolved : resolveExpression resolveKey domain owner expression = .ok ref) :
    ∀ declared ∈ ref.names, holds declared := by
  induction expression generalizing owner ref with
  | plain facets =>
    refine names_of_items inKeys (fun items item given _ => ?_) resolved
    cases given
  | withItems facets items ih =>
    refine names_of_items inKeys (fun items item given made => ?_) resolved
    cases given
    exact ih made

end Expressions

namespace TypeIndex

variable {index : TypeIndex}

theorem names_declared {key : String} {info : TypeInfo} (found : index.find? key = some info) :
    index.Names info.declared := by
  refine ⟨info, ?_, rfl⟩
  rw [TypeInfo.declared, key_of_find? found]
  exact found

theorem names_of_resolveKeyWithin {expansions : Nat} {domain part key : String} {ref : TypeRef}
    (resolved : resolveKeyWithin index expansions domain part key = .ok ref) :
    ∀ declared ∈ ref.names, index.Names declared := by
  induction expansions generalizing domain part key ref with
  | zero =>
    rw [resolveKeyWithin] at resolved
    split at resolved
    · cases resolved
    · next info found =>
      refine names_of_nameType (names_declared found) (fun meant endless => ?_) resolved
      cases endless
  | succ expansions ih =>
    rw [resolveKeyWithin] at resolved
    split at resolved
    · cases resolved
    · next info found =>
      refine names_of_nameType (names_declared found) (fun meant meaning => ?_) resolved
      exact names_of_resolveExpression (fun key ref => ih) meaning

theorem names_of_resolve {domain : String} {owner : Option String} {expression : TypeExpression}
    {ref : TypeRef} (resolved : index.resolve domain owner expression = .ok ref) :
    ∀ declared ∈ ref.names, index.Names declared :=
  names_of_resolveExpression (fun _ _ => names_of_resolveKeyWithin) resolved

end TypeIndex

/-- A declared type is declared by a domain when it is that of one of its declarations. -/
def DeclaredBy (domain : Domain) (declared : Declared) : Prop :=
  ∃ declaration ∈ domain.types,
    declared = ⟨domain.name, keyOf domain.name declaration.id, Naming.className declaration.id⟩

theorem Classified.exists_declaring {domains : List Domain} {index : TypeIndex}
    (classified : Classified domains index) {declared : Declared} (named : index.Names declared) :
    ∃ domain ∈ domains, DeclaredBy domain declared := by
  obtain ⟨info, found, rfl⟩ := named
  have entry := classified.entry found
  obtain ⟨domain, member, name, isDeclared⟩ :=
    mem_declarationsOf_iff.mp (lastDeclaration?_key entry.source).1
  refine ⟨domain, member, info.declaration, isDeclared, ?_⟩
  rw [TypeInfo.declared, TypeInfo.key, name, entry.id]

end ProtocolGen.Types
