import ProtocolGen.Proofs.Types.Checking
import ProtocolGen.Proofs.Types.ReferenceChains

/-!
# What is classified

Domains are classified exactly when every declaration has a kind, every expression that is used leads
to something known, and references from declaration to declaration come to an end. The index then has
one entry for each key.
-/

set_option autoImplicit false

namespace ProtocolGen.Types

/-- Domains whose types fit together. -/
structure Acceptable (domains : List Domain) : Prop where
  declarable : ∀ domain ∈ domains, ∀ declaration ∈ domain.types, Declarable declaration
  grounded : ∀ domain ∈ domains, ∀ expression, Uses domain expression →
    Grounded (· ∈ declaredKeys domains) domain.name expression
  ending : ∀ key ∈ declaredKeys domains, ∃ keys last,
    ReferenceChain (lastDeclaration? domains) key keys last ∧ keys.Nodup

/-- An index of what domains declare: one entry for each key, where the key is first declared and
with the content of its last declaration. -/
structure Classified (domains : List Domain) (index : TypeIndex) : Prop where
  keys : index.types.map TypeInfo.key = (declaredKeys domains).eraseDups
  unique : (index.types.map TypeInfo.key).Nodup
  content : ∀ info ∈ index.types,
    lastDeclaration? domains info.key = some (info.domain, info.declaration) ∧
      info.id = info.declaration.id ∧ kindOf info.domain info.declaration = .ok info.kind
  direct : ∀ info ∈ index.types, ∃ keys last,
    ReferenceChain (lastDeclaration? domains) info.key keys last ∧ info.direct = isDirectEnd last

/-- The shapes of all keys can be made when every declaration has a kind. -/
theorem exists_shapesOf_eq_ok_iff {domains : List Domain} :
    (∃ shapes, shapesOf domains = .ok shapes) ↔
      ∀ domain ∈ domains, ∀ declaration ∈ domain.types, Declarable declaration := by
  have each (source : String × TypeDeclaration) :
      (∃ shape, Shape.of source.1 source.2 = .ok shape) ↔ Declarable source.2 := by
    rw [← @exists_kindOf_eq_ok_iff source.1]
    simp only [Shape.of_eq_ok_iff]
    constructor
    · intro made
      obtain ⟨shape, rfl⟩ := made
      exact ⟨shape.kind, shape.kind_eq⟩
    · intro kinded
      obtain ⟨kind, kind_eq⟩ := kinded
      exact ⟨⟨source.1, source.2, kind, kind_eq⟩, rfl⟩
  have made : (∃ shapes, shapesOf domains = .ok shapes) ↔
      ∃ declared, declaredShapes domains = .ok declared := by
    simp [shapesOf, bind_eq_ok_iff, pure, Except.pure]
  rw [made, declaredShapes, exists_mapM_eq_ok_iff]
  simp only [each]
  constructor
  · intro declarable domain member declaration declared
    exact declarable (domain.name, declaration)
      (mem_declarationsOf_iff.mpr ⟨domain, member, rfl, declared⟩)
  · intro declarable source member
    obtain ⟨name, declaration⟩ := source
    obtain ⟨domain, member, -, declared⟩ := mem_declarationsOf_iff.mp member
    exact declarable domain member declaration declared

section Shaped

variable {domains : List Domain} {shapes : List Shape} (shaped : shapesOf domains = .ok shapes)

include shaped

theorem shapeSources_shapesOf : shapeSources shapes = lastDeclaration? domains :=
  funext (findShape?_shapesOf shaped)

theorem findShape?_isSome_iff {key : String} :
    (findShape? shapes key).isSome ↔ key ∈ declaredKeys domains := by
  rw [← lastDeclaration?_isSome_iff, ← findShape?_shapesOf shaped, Option.isSome_map]

theorem checkDomains_eq_ok_iff :
    checkDomains shapes domains = .ok () ↔ ∀ domain ∈ domains, ∀ expression,
      Uses domain expression → Grounded (· ∈ declaredKeys domains) domain.name expression := by
  unfold checkDomains
  simp only [forM_eq_ok_iff, Prod.forall, checkExpression_eq_ok_iff, findShape?_isSome_iff shaped,
    ← exists_mem_domainExpressions_iff]
  constructor
  · intro checked domain member expression uses
    obtain ⟨part, used⟩ := uses
    exact checked domain member part expression used
  · intro grounded domain member part expression used
    exact grounded domain member expression ⟨part, used⟩

theorem exists_classifyShapes_eq_ok_iff :
    (∃ types, classifyShapes shapes shapes.attach [] = .ok types) ↔
      ∀ key ∈ declaredKeys domains, ∃ keys last,
        ReferenceChain (lastDeclaration? domains) key keys last ∧ keys.Nodup := by
  have unique := nodup_keys_shapesOf shaped
  rw [← shapeSources_shapesOf shaped]
  constructor
  · intro accepted key declared
    obtain ⟨types, classified⟩ := accepted
    obtain ⟨shape, found⟩ := Option.isSome_iff_exists.mp ((findShape?_isSome_iff shaped).mpr declared)
    obtain ⟨info, -, keys, last, chain, -⟩ :=
      exists_right_of_mem (classifyShapes_sound unique (.nil shapes) classified)
        (List.mem_attach shapes ⟨shape, mem_of_findShape? found⟩)
    exact ⟨keys, last, findShape?_key found ▸ chain, chain.nodup⟩
  · intro ending
    refine classifyShapes_complete unique (.nil shapes) fun shape _ => ?_
    have declared : shape.1.key ∈ declaredKeys domains := by
      rw [← findShape?_isSome_iff shaped, findShape?_of_mem unique shape.2]
      rfl
    obtain ⟨keys, last, chain, -⟩ := ending shape.1.key declared
    exact ⟨keys, last, chain⟩

theorem classified_of_classifyShapes {types : List TypeInfo}
    (marked : classifyShapes shapes shapes.attach [] = .ok types) : Classified domains ⟨types⟩ := by
  have unique := nodup_keys_shapesOf shaped
  have made := classifyShapes_sound unique (.nil shapes) marked
  have keys : types.map TypeInfo.key = shapes.map Shape.key := by
    have paired : types.map TypeInfo.key = shapes.attach.map fun shape => shape.1.key := by
      rw [eq_comm, ← List.forall₂_eq_eq_eq, List.forall₂_map_left_iff, List.forall₂_map_right_iff]
      refine made.imp ?_
      intro shape info marked
      obtain ⟨_, _, _, rfl⟩ := marked
      rfl
    rw [paired, List.attach_map_val]
  have entries : ∀ info ∈ types, ∃ shape ∈ shapes, ∃ keys last,
      ReferenceChain (lastDeclaration? domains) shape.key keys last ∧
        info = shape.info (isDirectEnd last) := by
    intro info member
    obtain ⟨shape, -, chain⟩ := exists_left_of_mem made member
    exact ⟨shape.1, shape.2, shapeSources_shapesOf shaped ▸ chain⟩
  refine ⟨keys.trans (keys_shapesOf shaped), keys ▸ unique, ?_, ?_⟩
  · intro info member
    obtain ⟨shape, inShapes, _, _, _, rfl⟩ := entries info member
    refine ⟨?_, rfl, shape.kind_eq⟩
    rw [← shapeSources_shapesOf shaped]
    exact shapeSources_of_mem unique inShapes
  · intro info member
    obtain ⟨shape, _, keys, last, chain, rfl⟩ := entries info member
    exact ⟨keys, last, chain, rfl⟩

end Shaped

theorem classify_eq_ok_iff {domains : List Domain} {index : TypeIndex} :
    classify domains = .ok index ↔ ∃ shapes, shapesOf domains = .ok shapes ∧
      checkDomains shapes domains = .ok () ∧
        classifyShapes shapes shapes.attach [] = .ok index.types := by
  unfold classify
  simp only [bind_eq_ok_iff, pure, Except.pure, Except.ok.injEq]
  constructor
  · intro accepted
    obtain ⟨shapes, shaped, ⟨⟩, checked, types, marked, rfl⟩ := accepted
    exact ⟨shapes, shaped, checked, marked⟩
  · intro parts
    obtain ⟨shapes, shaped, checked, marked⟩ := parts
    exact ⟨shapes, shaped, ⟨⟩, checked, index.types, marked, rfl⟩

/-- Types that refer to nothing are classified each by its own declaration. -/
theorem classify_of_unreferring {domains : List Domain} (shapes : List Shape)
    (shaped : shapesOf domains = .ok shapes) (checked : checkDomains shapes domains = .ok ())
    (unreferring : ∀ shape ∈ shapes, shape.declaration.expression.reference? = none) :
    classify domains = .ok ⟨shapes.map fun shape => shape.info (isDirectEnd shape.source)⟩ := by
  have unique := nodup_keys_shapesOf shaped
  have chain (shape : Shape) (member : shape ∈ shapes) :
      ReferenceChain (shapeSources shapes) shape.key [shape.key] shape.source :=
    .done (shapeSources_of_mem unique member) (unreferring shape member)
  have classified : ∃ types, classifyShapes shapes shapes.attach [] = .ok types :=
    classifyShapes_complete unique (.nil shapes) fun shape _ => ⟨_, _, chain shape.1 shape.2⟩
  obtain ⟨types, marked⟩ := classified
  have same : types = shapes.map fun shape => shape.info (isDirectEnd shape.source) := by
    rw [← List.attach_map_val, eq_comm, ← List.forall₂_eq_eq_eq, List.forall₂_map_left_iff]
    refine (classifyShapes_sound unique (.nil shapes) marked).imp ?_
    rintro shape info ⟨keys, last, reached, rfl⟩
    rw [((chain shape.1 shape.2).unique reached).2]
  rw [classify_eq_ok_iff]
  exact ⟨shapes, shaped, checked, same ▸ marked⟩

theorem Classified.of_classify {domains : List Domain} {index : TypeIndex}
    (accepted : classify domains = .ok index) : Classified domains index := by
  rw [classify_eq_ok_iff] at accepted
  obtain ⟨shapes, shaped, -, marked⟩ := accepted
  exact classified_of_classifyShapes shaped marked

theorem exists_classify_eq_ok_iff {domains : List Domain} :
    (∃ index, classify domains = .ok index) ↔ Acceptable domains := by
  simp only [classify_eq_ok_iff]
  constructor
  · intro accepted
    obtain ⟨index, shapes, shaped, checked, marked⟩ := accepted
    exact ⟨exists_shapesOf_eq_ok_iff.mp ⟨shapes, shaped⟩, (checkDomains_eq_ok_iff shaped).mp checked,
      (exists_classifyShapes_eq_ok_iff shaped).mp ⟨index.types, marked⟩⟩
  · intro acceptable
    obtain ⟨declarable, grounded, ending⟩ := acceptable
    obtain ⟨shapes, shaped⟩ := exists_shapesOf_eq_ok_iff.mpr declarable
    obtain ⟨types, marked⟩ := (exists_classifyShapes_eq_ok_iff shaped).mpr ending
    exact ⟨⟨types⟩, shapes, shaped, (checkDomains_eq_ok_iff shaped).mpr grounded, marked⟩

theorem Acceptable.of_classify {domains : List Domain} {index : TypeIndex}
    (accepted : classify domains = .ok index) : Acceptable domains := by
  rw [← exists_classify_eq_ok_iff]
  exact ⟨index, accepted⟩

/-- Classification ends with an index of all keys exactly when types fit together, and is refused
otherwise. -/
theorem classify_accepts_iff_acceptable (domains : List Domain) :
    ((∃ index, classify domains = .ok index ∧ Classified domains index) ↔ Acceptable domains) ∧
      ((∃ refusal, classify domains = .error refusal) ↔ ¬ Acceptable domains) := by
  constructor
  · constructor
    · intro accepted
      obtain ⟨index, accepted, -⟩ := accepted
      exact .of_classify accepted
    · intro acceptable
      rw [← exists_classify_eq_ok_iff] at acceptable
      obtain ⟨index, accepted⟩ := acceptable
      exact ⟨index, accepted, .of_classify accepted⟩
  · rw [exists_error_iff_not_exists_ok, exists_classify_eq_ok_iff]

end ProtocolGen.Types
