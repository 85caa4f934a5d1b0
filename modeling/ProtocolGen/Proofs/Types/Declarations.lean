import ProtocolGen.Proofs.Sequencing
import ProtocolGen.Types.Index

/-!
# Declarations under their keys

Which keys domains declare, and what stands under a key that is declared more than once. The shapes
of domains are one for each key, in the order of the first declarations and with the content of the
last ones.
-/

set_option autoImplicit false

namespace ProtocolGen.Types

/-- The key of a declaration in a domain. -/
def sourceKey (source : String × TypeDeclaration) : String := keyOf source.1 source.2.id

/-- The keys that domains declare, in order and with repetitions. -/
def declaredKeys (domains : List Domain) : List String := (declarationsOf domains).map sourceKey

def declarationsUnder (domains : List Domain) (key : String) : List (String × TypeDeclaration) :=
  (declarationsOf domains).filter fun source => sourceKey source == key

def lastDeclaration? (domains : List Domain) (key : String) : Option (String × TypeDeclaration) :=
  (declarationsUnder domains key).getLast?

def Shape.source (shape : Shape) : String × TypeDeclaration := (shape.domain, shape.declaration)

@[simp] theorem sourceKey_source (shape : Shape) : sourceKey shape.source = shape.key := rfl

theorem mem_declarationsOf_iff {domains : List Domain} {name : String}
    {declaration : TypeDeclaration} :
    (name, declaration) ∈ declarationsOf domains ↔
      ∃ domain ∈ domains, domain.name = name ∧ declaration ∈ domain.types := by
  simp only [declarationsOf, List.mem_flatMap, List.mem_map, Prod.mk.injEq]
  constructor
  · intro found
    obtain ⟨domain, member, _, declared, rfl, rfl⟩ := found
    exact ⟨domain, member, rfl, declared⟩
  · intro declares
    obtain ⟨domain, member, rfl, declared⟩ := declares
    exact ⟨domain, member, declaration, declared, rfl, rfl⟩

theorem lastDeclaration?_key {domains : List Domain} {key : String}
    {source : String × TypeDeclaration} (found : lastDeclaration? domains key = some source) :
    source ∈ declarationsOf domains ∧ sourceKey source = key := by
  have member := List.mem_of_getLast? found
  simpa [declarationsUnder] using member

theorem lastDeclaration?_isSome_iff {domains : List Domain} {key : String} :
    (lastDeclaration? domains key).isSome ↔ key ∈ declaredKeys domains := by
  rw [lastDeclaration?, List.getLast?_isSome]
  simp [declarationsUnder, declaredKeys]

theorem Shape.of_eq_ok_iff {source : String × TypeDeclaration} {shape : Shape} :
    Shape.of source.1 source.2 = .ok shape ↔ source = shape.source := by
  obtain ⟨domain, declaration⟩ := source
  constructor
  · intro made
    unfold Shape.of at made
    split at made
    · cases made; rfl
    · cases made
  · intro same
    obtain ⟨shapeDomain, shapeDeclaration, kind, kind_eq⟩ := shape
    cases same
    unfold Shape.of
    split
    · next other other_eq =>
      cases kind_eq.symm.trans other_eq
      rfl
    · next refusal refused =>
      rw [kind_eq] at refused
      cases refused

theorem Shape.of_eq_error_iff {domain : String} {declaration : TypeDeclaration}
    {refusal : Refusal} :
    Shape.of domain declaration = .error refusal ↔ kindOf domain declaration = .error refusal := by
  unfold Shape.of
  split
  · next kind kind_eq => simp [kind_eq]
  · next other refused => simp [refused]

theorem declaredShapes_eq_ok_iff {domains : List Domain} {shapes : List Shape} :
    declaredShapes domains = .ok shapes ↔ declarationsOf domains = shapes.map Shape.source := by
  unfold declaredShapes
  rw [mapM_eq_ok_iff, ← List.forall₂_eq_eq_eq, List.forall₂_map_right_iff]
  simp only [Shape.of_eq_ok_iff]

/-! ## Shapes put in one after the other -/

theorem keys_insertShape (shape : Shape) (shapes : List Shape) :
    (insertShape shape shapes).map Shape.key =
      if shape.key ∈ shapes.map Shape.key then shapes.map Shape.key
      else shapes.map Shape.key ++ [shape.key] := by
  induction shapes with
  | nil => simp [insertShape]
  | cons known shapes ih =>
    by_cases same : known.key = shape.key
    · simp [insertShape, same]
    · have other : shape.key ≠ known.key := fun equal => same equal.symm
      rw [insertShape, if_neg same, List.map_cons, ih]
      simp only [List.map_cons, List.mem_cons, other, false_or]
      split <;> rfl

theorem findShape?_insertShape (shape : Shape) (shapes : List Shape) (key : String) :
    findShape? (insertShape shape shapes) key =
      if shape.key = key then some shape else findShape? shapes key := by
  induction shapes with
  | nil => rw [insertShape, findShape?_cons]
  | cons known shapes ih =>
    by_cases same : known.key = shape.key
    · rw [insertShape, if_pos same, findShape?_cons, findShape?_cons, same]
      split <;> rfl
    · rw [insertShape, if_neg same, findShape?_cons, findShape?_cons, ih]
      by_cases wanted : shape.key = key
      · rw [if_neg (wanted ▸ same), if_pos wanted, if_pos wanted]
      · rw [if_neg wanted, if_neg wanted]

/-- New keys come after those that are there, in the order of their first mentions. -/
theorem keys_insertShapes (added shapes : List Shape) :
    (insertShapes added shapes).map Shape.key =
      shapes.map Shape.key ++
        ((added.map Shape.key).filter fun key =>
          !(shapes.map Shape.key).contains key).eraseDups := by
  induction added generalizing shapes with
  | nil => simp [insertShapes]
  | cons shape added ih =>
    change (insertShapes added (insertShape shape shapes)).map Shape.key = _
    rw [ih, keys_insertShape, List.map_cons, List.filter_cons]
    by_cases known : shape.key ∈ shapes.map Shape.key
    · rw [if_pos known, if_neg (by simpa using known)]
    · rw [if_neg known, if_pos (by simpa using known), List.eraseDups_cons, List.append_assoc,
        List.filter_filter, List.singleton_append]
      congr 4
      funext key
      rw [List.contains_append, Bool.not_or, Bool.and_comm, List.contains_cons, List.contains_nil,
        Bool.or_false]

theorem nodup_keys_insertShapes (added : List Shape) {shapes : List Shape}
    (unique : (shapes.map Shape.key).Nodup) :
    ((insertShapes added shapes).map Shape.key).Nodup := by
  induction added generalizing shapes with
  | nil => exact unique
  | cons shape added ih =>
    refine ih ?_
    rw [keys_insertShape]
    split
    · exact unique
    · next fresh => exact List.nodup_append.mpr ⟨unique, by simp, by simpa using fresh⟩

theorem findShape?_insertShapes (added shapes : List Shape) (key : String) :
    findShape? (insertShapes added shapes) key =
      ((added.filter fun shape => shape.key == key).getLast?).or (findShape? shapes key) := by
  induction added generalizing shapes with
  | nil => rfl
  | cons shape added ih =>
    change findShape? (insertShapes added (insertShape shape shapes)) key = _
    rw [ih, findShape?_insertShape, List.filter_cons]
    by_cases same : shape.key = key
    · rw [if_pos same, if_pos (by simpa using same), List.getLast?_cons]
      cases (added.filter fun shape => shape.key == key).getLast? <;> rfl
    · rw [if_neg same, if_neg (by simpa using same)]

theorem shapesOf_eq_ok_iff {domains : List Domain} {shapes : List Shape} :
    shapesOf domains = .ok shapes ↔ ∃ declared : List Shape,
      declarationsOf domains = declared.map Shape.source ∧ insertShapes declared [] = shapes := by
  unfold shapesOf
  rw [bind_eq_ok_iff]
  simp only [declaredShapes_eq_ok_iff, pure, Except.pure, Except.ok.injEq]

theorem keys_shapesOf {domains : List Domain} {shapes : List Shape}
    (shaped : shapesOf domains = .ok shapes) :
    shapes.map Shape.key = (declaredKeys domains).eraseDups := by
  rw [shapesOf_eq_ok_iff] at shaped
  obtain ⟨declared, sources, rfl⟩ := shaped
  rw [keys_insertShapes, declaredKeys, sources]
  simp [Function.comp_def]

theorem nodup_keys_shapesOf {domains : List Domain} {shapes : List Shape}
    (shaped : shapesOf domains = .ok shapes) : (shapes.map Shape.key).Nodup := by
  rw [shapesOf_eq_ok_iff] at shaped
  obtain ⟨declared, -, rfl⟩ := shaped
  exact nodup_keys_insertShapes declared List.nodup_nil

/-- The shape of a key has the content of the last declaration under it. -/
theorem findShape?_shapesOf {domains : List Domain} {shapes : List Shape}
    (shaped : shapesOf domains = .ok shapes) (key : String) :
    (findShape? shapes key).map Shape.source = lastDeclaration? domains key := by
  rw [shapesOf_eq_ok_iff] at shaped
  obtain ⟨declared, sources, rfl⟩ := shaped
  rw [findShape?_insertShapes, lastDeclaration?, declarationsUnder, sources, List.filter_map,
    List.getLast?_map]
  simp [Function.comp_def]

end ProtocolGen.Types
