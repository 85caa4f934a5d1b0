import ProtocolGen.Proofs.Types.AliasChains

/-!
# More domains

Domains with others added between them. When those declare none of the keys that are there, every
entry of the index stays as it is, and so does whatever resolves.
-/

set_option autoImplicit false

namespace ProtocolGen.Types

/-- Domains sorted by name, no two of which share a name. -/
def Sorted (domains : List Domain) : Prop :=
  domains.Pairwise fun left right => left.name < right.name

/-- Sorted domains among others that declare none of their keys. -/
structure DomainExtension (domains extended : List Domain) : Prop where
  sorted : Sorted domains
  sortedExtended : Sorted extended
  contained : domains ⊆ extended
  fresh : ∀ added ∈ extended, added ∉ domains → ∀ declaration ∈ added.types,
    keyOf added.name declaration.id ∉ declaredKeys domains

/-- All entries of an index are those of another one. -/
def TypeIndex.Within (index wider : TypeIndex) : Prop :=
  ∀ key info, index.find? key = some info → wider.find? key = some info

theorem Sorted.nodup {domains : List Domain} (sorted : Sorted domains) : domains.Nodup := by
  refine List.Pairwise.imp ?_ sorted
  intro left right before same
  exact String.lt_irrefl _ (same ▸ before)

namespace DomainExtension

variable {domains extended : List Domain} (extension : DomainExtension domains extended)

include extension

theorem filter_mem : extended.filter (· ∈ domains) = domains := by
  -- Both lists are in the order of their names, so it is enough that they have the same members.
  have sorted := extension.sortedExtended.filter (· ∈ domains)
  refine List.Perm.eq_of_pairwise ?_ sorted extension.sorted ?_
  · intro left right _ _ before after
    exact absurd (String.lt_trans before after) (String.lt_irrefl _)
  · rw [List.perm_ext_iff_of_nodup (Sorted.nodup sorted) extension.sorted.nodup]
    intro domain
    simp only [List.mem_filter, decide_eq_true_eq]
    exact ⟨fun both => both.2, fun member => ⟨extension.contained member, member⟩⟩

theorem declarationsUnder_eq {key : String} (declared : key ∈ declaredKeys domains) :
    declarationsUnder extended key = declarationsUnder domains key := by
  have others : ∀ added ∈ extended, added ∉ domains →
      (added.types.map fun declaration => (added.name, declaration)).filter
        (fun source => sourceKey source == key) = [] := by
    intro added member new
    rw [List.filter_eq_nil_iff]
    intro source from_added
    obtain ⟨declaration, of_added, rfl⟩ := List.mem_map.mp from_added
    rw [beq_iff_eq]
    rintro rfl
    exact extension.fresh added member new declaration of_added declared
  conv_rhs => rw [declarationsUnder, declarationsOf, ← extension.filter_mem]
  rw [declarationsUnder, declarationsOf, List.filter_flatMap, List.filter_flatMap]
  clear extension
  induction extended with
  | nil => rfl
  | cons domain rest ih =>
    rw [List.forall_mem_cons] at others
    rw [List.flatMap_cons, ih others.2, List.filter_cons]
    by_cases member : domain ∈ domains
    · rw [if_pos (by simpa using member), List.flatMap_cons]
    · rw [if_neg (by simpa using member), others.1 member, List.nil_append]

theorem lastDeclaration?_eq {key : String} (declared : key ∈ declaredKeys domains) :
    lastDeclaration? extended key = lastDeclaration? domains key := by
  rw [lastDeclaration?, lastDeclaration?, extension.declarationsUnder_eq declared]

theorem entry {key : String} {info : TypeInfo} (entry : Entry domains key info) :
    Entry extended key info := by
  have known {member : String} (stands : (lastDeclaration? domains member).isSome) :
      lastDeclaration? extended member = lastDeclaration? domains member :=
    extension.lastDeclaration?_eq (lastDeclaration?_isSome_iff.mp stands)
  obtain ⟨source, id, kind, keys, last, chain, direct⟩ := entry
  have wider : ReferenceChain (lastDeclaration? extended) key keys last := by
    refine chain.congr fun member on => ?_
    obtain ⟨_, rest, -⟩ := chain.rest_of_mem on
    exact known rest.sources_isSome
  exact ⟨(known (source ▸ rfl)).trans source, id, kind, keys, last, wider, direct⟩

theorem within {index wider : TypeIndex} (accepted : classify domains = .ok index)
    (acceptedExtended : classify extended = .ok wider) : index.Within wider := by
  intro key info found
  have entry := extension.entry ((Classified.of_classify accepted).entry found)
  have classified := Classified.of_classify acceptedExtended
  have declared : wider.declares key :=
    classified.declares_iff.mpr (lastDeclaration?_isSome_iff.mp (entry.source ▸ rfl))
  obtain ⟨other, otherFound⟩ := TypeIndex.exists_find?_of_declares declared
  rw [entry.unique (classified.entry otherFound), otherFound]

end DomainExtension

/-! ## What resolves -/

namespace TypeIndex

variable {index wider : TypeIndex}

theorem Within.expansions_le (within : index.Within wider)
    (unique : (index.types.map TypeInfo.key).Nodup) : index.expansions ≤ wider.expansions := by
  have contained : index.types.map TypeInfo.key ⊆ wider.types.map TypeInfo.key := by
    intro key member
    rw [← declares_iff_mem] at member ⊢
    obtain ⟨info, found⟩ := exists_find?_of_declares member
    rw [declares, within key info found]
    rfl
  have bound := unique.length_le_of_subset contained
  rwa [List.length_map, List.length_map] at bound

section Closed

variable (within : index.Within wider) (closed : index.Closed)

include within closed

theorem Within.resolveKeyWithin_eq {key : String} (declared : index.declares key)
    (expansions : Nat) (domain part : String) :
    resolveKeyWithin wider expansions domain part key =
      resolveKeyWithin index expansions domain part key := by
  induction expansions generalizing key domain part with
  | zero =>
    obtain ⟨info, found⟩ := exists_find?_of_declares declared
    rw [resolveKeyWithin, resolveKeyWithin, within key info found, found]
  | succ expansions ih =>
    obtain ⟨info, found⟩ := exists_find?_of_declares declared
    by_cases kind : info.kind = .alias
    · rw [resolveKeyWithin_succ found kind, resolveKeyWithin_succ (within key info found) kind]
      rw [(closed key info found kind).resolveExpression_congr fun other known =>
        ih known info.domain other]
    · obtain ⟨ref, named⟩ := nameType_of_not_alias kind
      rw [resolveKeyWithin, resolveKeyWithin, within key info found, found]
      exact (named _).trans (named _).symm

/-- What resolves to a type does so in the wider index, to the same type. -/
theorem Within.resolve_eq_ok (unique : (index.types.map TypeInfo.key).Nodup) {domain : String}
    {owner : Option String} {expression : TypeExpression} {ref : TypeRef}
    (resolved : index.resolve domain owner expression = .ok ref) :
    wider.resolve domain owner expression = .ok ref := by
  cases Resolution.of_closed closed domain owner expression with
  | refused _ refused => cases resolved.symm.trans (refused index.expansions)
  | endless _ _ endless => cases resolved.symm.trans (endless index.expansions)
  | resolved grounded _ resolves =>
    cases resolved.symm.trans (resolves index.expansions (Nat.le_refl _))
    rw [← resolves wider.expansions (within.expansions_le unique)]
    exact grounded.resolveExpression_congr (fun key known =>
      within.resolveKeyWithin_eq closed known _ _ _) owner

end Closed

theorem declared?_of_nameType {info : TypeInfo} {meaning : Unit → Except Failure TypeRef}
    {ref : TypeRef} (named : nameType info meaning = .ok ref) :
    ref.declared? = some ⟨info.domain, info.key, Naming.className info.id⟩ := by
  unfold nameType at named
  dsimp only at named
  split at named
  · cases named; rfl
  · cases named; rfl
  · cases named; rfl
  · obtain ⟨_, -, rfl⟩ := map_eq_ok_iff.mp named
    rfl

/-- An expression that is no reference resolves to a type without a name. -/
theorem declared?_of_resolveExpression {resolveKey : String → Except Failure TypeRef}
    {domain : String} {owner : Option String} {expression : TypeExpression} {ref : TypeRef}
    (unreferring : expression.reference? = none)
    (resolved : resolveExpression resolveKey domain owner expression = .ok ref) :
    ref.declared? = none := by
  rw [resolveExpression_eq, unreferring] at resolved
  dsimp only at resolved
  split at resolved
  · split at resolved
    · obtain ⟨_, -, rfl⟩ := map_eq_ok_iff.mp resolved
      rfl
    · cases resolved
  · cases resolved; rfl
  · cases resolved; rfl
  · split at resolved
    · cases resolved; rfl
    · cases resolved

theorem declares_of_resolve {domain : String} {owner : Option String}
    {expression : TypeExpression} {ref : TypeRef} {declared : Declared}
    (resolved : index.resolve domain owner expression = .ok ref)
    (names : ref.declared? = some declared) : index.declares declared.key := by
  cases refers : expression.reference? with
  | none => cases names.symm.trans (declared?_of_resolveExpression refers resolved)
  | some reference =>
    rw [resolve, resolveWithin, resolveExpression_eq, refers] at resolved
    dsimp only at resolved
    rw [resolveKeyWithin] at resolved
    split at resolved
    · cases resolved
    · next info found =>
      cases names.symm.trans (declared?_of_nameType resolved)
      dsimp only
      rw [key_of_find? found, declares, found]
      rfl

theorem Within.needsIndirection_eq (within : index.Within wider) {ref : TypeRef}
    (known : ∀ declared, ref.declared? = some declared → index.declares declared.key) :
    wider.needsIndirection ref = index.needsIndirection ref := by
  unfold needsIndirection
  cases names : ref.declared? with
  | none => rfl
  | some declared =>
    obtain ⟨info, found⟩ := exists_find?_of_declares (known declared names)
    simp only [found, within declared.key info found]

end TypeIndex

end ProtocolGen.Types
