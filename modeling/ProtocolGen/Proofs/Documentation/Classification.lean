import ProtocolGen.Proofs.Documentation.Undocumented
import ProtocolGen.Proofs.Types.Declarations

/-!
# Types without documentation

Neither phase of type resolution looks at documentation: protocols that have none are classified with
the same kinds and marks or refused for the same cause, and their expressions resolve to the same
types.
-/

set_option autoImplicit false

namespace ProtocolGen.Types

/-! ## Kinds and shapes -/

@[simp] theorem kindOf_undocumented (domain : String) (declaration : TypeDeclaration) :
    kindOf domain declaration.undocumented = kindOf domain declaration := by
  simp only [kindOf, TypeDeclaration.expression_undocumented, TypeDeclaration.id_undocumented,
    TypeExpression.reference?_undescribed, TypeExpression.labels?_undescribed,
    TypeExpression.type_undescribed, TypeDeclaration.propertyList_undocumented, List.isEmpty_map]

def Shape.undocumented (shape : Shape) : Shape :=
  ⟨shape.domain, shape.declaration.undocumented, shape.kind,
    (kindOf_undocumented _ _).trans shape.kind_eq⟩

def TypeInfo.undocumented (info : TypeInfo) : TypeInfo :=
  { info with declaration := info.declaration.undocumented }

def TypeIndex.undocumented (index : TypeIndex) : TypeIndex := ⟨index.types.map TypeInfo.undocumented⟩

namespace Shape

variable (shape : Shape)

@[simp] theorem key_undocumented : shape.undocumented.key = shape.key := rfl

@[simp] theorem kind_undocumented : shape.undocumented.kind = shape.kind := rfl

@[simp] theorem expression_undocumented :
    shape.undocumented.declaration.expression = shape.declaration.expression.undescribed := rfl

end Shape

theorem keys_undocumented (shapes : List Shape) :
    (shapes.map Shape.undocumented).map Shape.key = shapes.map Shape.key := by
  rw [List.map_map]
  rfl

theorem Shape.of_undocumented (domain : String) (declaration : TypeDeclaration) :
    Shape.of domain declaration.undocumented =
      (Shape.of domain declaration).map Shape.undocumented := by
  cases made : Shape.of domain declaration with
  | ok shape =>
    have source : (domain, declaration) = shape.source := Shape.of_eq_ok_iff.mp made
    cases source
    exact (@Shape.of_eq_ok_iff shape.undocumented.source _).mpr rfl
  | error refusal =>
    rw [Shape.of_eq_error_iff] at made
    exact Shape.of_eq_error_iff.mpr ((kindOf_undocumented _ _).trans made)

theorem declarationsOf_undocumented (domains : List Domain) :
    declarationsOf (domains.map Domain.undocumented) =
      (declarationsOf domains).map fun source => (source.1, source.2.undocumented) := by
  rw [declarationsOf, declarationsOf, List.flatMap_map, List.map_flatMap]
  congr 1
  funext domain
  rw [List.map_map]
  exact List.map_map

theorem declaredShapes_undocumented (domains : List Domain) :
    declaredShapes (domains.map Domain.undocumented) =
      (declaredShapes domains).map (List.map Shape.undocumented) := by
  rw [declaredShapes, declaredShapes, map_mapM, declarationsOf_undocumented, List.mapM_map]
  simp only [← Shape.of_undocumented]
  rfl

theorem insertShape_undocumented (shape : Shape) (shapes : List Shape) :
    insertShape shape.undocumented (shapes.map Shape.undocumented) =
      (insertShape shape shapes).map Shape.undocumented := by
  induction shapes with
  | nil => rfl
  | cons known shapes ih =>
    rw [List.map_cons, insertShape, insertShape, Shape.key_undocumented, Shape.key_undocumented]
    split
    · rfl
    · rw [ih, List.map_cons]

theorem insertShapes_undocumented (added shapes : List Shape) :
    insertShapes (added.map Shape.undocumented) (shapes.map Shape.undocumented) =
      (insertShapes added shapes).map Shape.undocumented := by
  induction added generalizing shapes with
  | nil => rfl
  | cons shape added ih =>
    change insertShapes (added.map Shape.undocumented)
      (insertShape shape.undocumented (shapes.map Shape.undocumented)) = _
    rw [insertShape_undocumented, ih]
    rfl

theorem shapesOf_undocumented (domains : List Domain) :
    shapesOf (domains.map Domain.undocumented) =
      (shapesOf domains).map (List.map Shape.undocumented) := by
  rw [shapesOf, shapesOf, declaredShapes_undocumented, map_bind]
  cases declaredShapes domains with
  | error refusal => rfl
  | ok declared => exact congrArg Except.ok (insertShapes_undocumented declared [])

/-! ## Checks -/

@[simp] theorem checkExpression_undocumented (known : String → Bool) (domain part : String)
    (expression : TypeExpression) :
    checkExpression known domain part expression.undocumented =
      checkExpression known domain part expression := by
  induction expression with
  | plain facets => rfl
  | withItems facets items ih =>
    rw [TypeExpression.undocumented, checkExpression, checkExpression, ih]
    rfl

def bare (used : String × TypeExpression) : String × TypeExpression := (used.1, used.2.undocumented)

theorem bare_namedProperties (owner : String) (properties : List Property) :
    (namedProperties owner (properties.map Property.undocumented)).map bare =
      (namedProperties owner properties).map bare := by
  simp only [namedProperties, List.map_map, Function.comp_def, bare, Property.undocumented,
    TypeExpression.undocumented_undocumented]

theorem bare_declarationExpressions (declaration : TypeDeclaration) :
    (declarationExpressions declaration.undocumented).map bare =
      (declarationExpressions declaration).map bare := by
  rw [declarationExpressions, declarationExpressions, List.map_append, List.map_append,
    TypeDeclaration.propertyList_undocumented]
  refine congrArg₂ List.append ?_ (bare_namedProperties declaration.id declaration.propertyList)
  rw [TypeDeclaration.expression_undocumented, TypeExpression.type_undescribed,
    TypeExpression.reference?_undescribed]
  split
  · simp only [List.map_cons, List.map_nil, bare, TypeExpression.undocumented_undescribed]
    rfl
  · rfl

theorem bare_domainExpressions (domain : Domain) :
    (domainExpressions domain.undocumented).map bare = (domainExpressions domain).map bare := by
  have ofCommand (command : Command) :
      (namedProperties command.undocumented.name
        (command.undocumented.parameters ++ command.undocumented.returns)).map bare =
      (namedProperties command.name (command.parameters ++ command.returns)).map bare := by
    rw [← bare_namedProperties command.name (command.parameters ++ command.returns),
      List.map_append]
    rfl
  have ofEvent (event : Event) :
      (namedProperties event.undocumented.name event.undocumented.parameters).map bare =
      (namedProperties event.name event.parameters).map bare :=
    bare_namedProperties event.name event.parameters
  simp only [domainExpressions, Domain.undocumented, List.map_append, List.map_flatMap,
    List.flatMap_map, bare_declarationExpressions, ofCommand, ofEvent]

theorem checkDomains_eq_bare (shapes : List Shape) (domains : List Domain) :
    checkDomains shapes domains = domains.forM fun domain =>
      ((domainExpressions domain).map bare).forM fun used =>
        checkExpression (fun key => (findShape? shapes key).isSome) domain.name used.1 used.2 := by
  simp only [checkDomains, List.forM_eq_forM, List.forM_map, bare, checkExpression_undocumented]

theorem findShape?_undocumented (shapes : List Shape) (key : String) :
    findShape? (shapes.map Shape.undocumented) key =
      (findShape? shapes key).map Shape.undocumented := by
  rw [findShape?, findShape?, List.find?_map]
  rfl

theorem checkDomains_undocumented (shapes : List Shape) (domains : List Domain) :
    checkDomains (shapes.map Shape.undocumented) (domains.map Domain.undocumented) =
      checkDomains shapes domains := by
  rw [checkDomains_eq_bare, checkDomains_eq_bare, List.forM_eq_forM, List.forM_eq_forM,
    List.forM_map]
  simp only [bare_domainExpressions, findShape?_undocumented, Option.isSome_map]
  rfl

/-! ## Following references -/

theorem cycleRefusal_undocumented (trail : List Shape) (shape : Shape) :
    cycleRefusal (trail.map Shape.undocumented) shape.undocumented = cycleRefusal trail shape := by
  have start : (trail.map Shape.undocumented).getLastD shape.undocumented =
      (trail.getLastD shape).undocumented := by
    rw [List.getLastD_eq_getLast?, List.getLastD_eq_getLast?, List.getLast?_map,
      Option.getD_map]
  rw [cycleRefusal, cycleRefusal, start, ← List.map_cons, ← List.map_reverse, List.map_map]
  rfl

theorem directOf_undocumented (shapes : List Shape) (memo : Memo) (trail : List Shape)
    (shape : Shape) (member : shape ∈ shapes)
    (others : shape.undocumented ∈ shapes.map Shape.undocumented) :
    directOf (shapes.map Shape.undocumented) memo (trail.map Shape.undocumented) shape.undocumented
      others = directOf shapes memo trail shape member := by
  fun_induction directOf shapes memo trail shape member with
  | case1 trail shape member direct found =>
    unfold directOf
    simp only [Shape.key_undocumented, found]
  | case2 trail shape member unsettled repeated =>
    unfold directOf
    simp only [Shape.key_undocumented, unsettled, keys_undocumented, repeated,
      cycleRefusal_undocumented]
    rfl
  | case3 trail shape member unsettled fresh record =>
    unfold directOf
    simp only [Shape.key_undocumented, unsettled, keys_undocumented, fresh, Shape.kind_undocumented,
      record]
    rfl
  | case4 trail shape member unsettled fresh enumeration =>
    unfold directOf
    simp only [Shape.key_undocumented, unsettled, keys_undocumented, fresh, Shape.kind_undocumented,
      enumeration]
    rfl
  | case5 trail shape member unsettled fresh raw =>
    unfold directOf
    simp only [Shape.key_undocumented, unsettled, keys_undocumented, fresh, Shape.kind_undocumented,
      raw]
    rfl
  | case6 trail shape member unsettled fresh isAlias unreferring =>
    unfold directOf
    simp only [Shape.key_undocumented, unsettled, keys_undocumented, fresh, Shape.kind_undocumented,
      isAlias, Shape.expression_undocumented, TypeExpression.reference?_undescribed,
      TypeExpression.type_undescribed, unreferring]
    rfl
  | case7 trail shape member unsettled fresh isAlias reference refers missing =>
    have missingToo := findShape?_undocumented shapes (qualify shape.domain reference)
    rw [missing, Option.map_none] at missingToo
    unfold directOf
    simp only [Shape.key_undocumented, unsettled, keys_undocumented, fresh, Shape.kind_undocumented,
      isAlias, Shape.expression_undocumented, TypeExpression.reference?_undescribed, refers]
    rw [dif_neg not_false]
    split
    · rfl
    · next target found => cases missingToo.symm.trans found
  | case8 trail shape member unsettled fresh isAlias reference refers target found _ ih =>
    have foundToo := findShape?_undocumented shapes (qualify shape.domain reference)
    rw [found, Option.map_some] at foundToo
    -- Only the left side is folded: the induction has taken the first step on the right.
    conv_lhs => unfold directOf
    simp only [Shape.key_undocumented, unsettled, keys_undocumented, fresh, Shape.kind_undocumented,
      isAlias, Shape.expression_undocumented, TypeExpression.reference?_undescribed, refers]
    rw [dif_neg not_false]
    split
    · next missing => cases foundToo.symm.trans missing
    · next other otherFound =>
      cases foundToo.symm.trans otherFound
      exact congrArg (Except.map _) (ih _)

theorem classifyShapes_undocumented (shapes : List Shape)
    (rest : List { shape : Shape // shape ∈ shapes }) (memo : Memo) :
    classifyShapes (shapes.map Shape.undocumented)
      (rest.map fun shape => ⟨shape.1.undocumented, List.mem_map_of_mem shape.2⟩) memo =
    (classifyShapes shapes rest memo).map (List.map TypeInfo.undocumented) := by
  induction rest generalizing memo with
  | nil => rfl
  | cons shape rest ih =>
    obtain ⟨shape, member⟩ := shape
    have settled := directOf_undocumented shapes memo [] shape member (List.mem_map_of_mem member)
    rw [List.map_nil] at settled
    rw [List.map_cons, classifyShapes, classifyShapes, settled]
    cases directOf shapes memo [] shape member with
    | error refusal => rfl
    | ok result =>
      obtain ⟨direct, memo⟩ := result
      change (classifyShapes _ _ memo >>= _) = ((classifyShapes shapes rest memo >>= _).map _)
      rw [ih]
      cases classifyShapes shapes rest memo <;> rfl

theorem attach_undocumented (shapes : List Shape) :
    (shapes.map Shape.undocumented).attach =
      shapes.attach.map fun shape => ⟨shape.1.undocumented, List.mem_map_of_mem shape.2⟩ := by
  rw [List.attach_map]

/-- Documentation has no say in how types are classified. -/
theorem classify_undocumented (domains : List Domain) :
    classify (domains.map Domain.undocumented) =
      (classify domains).map TypeIndex.undocumented := by
  rw [classify, classify, shapesOf_undocumented]
  cases shapesOf domains with
  | error refusal => rfl
  | ok shapes =>
    change (checkDomains (shapes.map Shape.undocumented) _ >>= _) =
      ((checkDomains shapes domains >>= _).map _)
    rw [checkDomains_undocumented]
    cases checkDomains shapes domains with
    | error refusal => rfl
    | ok _ =>
      change (classifyShapes (shapes.map Shape.undocumented) _ [] >>= _) =
        ((classifyShapes shapes shapes.attach [] >>= _).map _)
      rw [attach_undocumented, classifyShapes_undocumented]
      cases classifyShapes shapes shapes.attach [] <;> rfl

/-! ## Resolving -/

@[simp] theorem find?_undocumented (index : TypeIndex) (key : String) :
    index.undocumented.find? key = (index.find? key).map TypeInfo.undocumented := by
  rw [TypeIndex.find?, TypeIndex.find?, TypeIndex.undocumented, List.find?_map]
  rfl

@[simp] theorem resolveExpression_undocumented (resolveKey : String → Except Failure TypeRef)
    (domain : String) (owner : Option String) (expression : TypeExpression) :
    resolveExpression resolveKey domain owner expression.undocumented =
      resolveExpression resolveKey domain owner expression := by
  induction expression generalizing owner with
  | plain facets => rfl
  | withItems facets items ih =>
    rw [TypeExpression.undocumented, resolveExpression, resolveExpression, ih]
    rfl

theorem resolveExpression_congr {resolveKey : String → Except Failure TypeRef} {domain : String}
    {owner : Option String} {expression other : TypeExpression}
    (same : expression.undocumented = other.undocumented) :
    resolveExpression resolveKey domain owner expression =
      resolveExpression resolveKey domain owner other := by
  rw [← resolveExpression_undocumented, same, resolveExpression_undocumented]

theorem resolveKeyWithin_undocumented (index : TypeIndex) (expansions : Nat)
    (domain part key : String) :
    resolveKeyWithin index.undocumented expansions domain part key =
      resolveKeyWithin index expansions domain part key := by
  induction expansions generalizing domain part key with
  | zero =>
    rw [resolveKeyWithin, resolveKeyWithin, find?_undocumented]
    cases index.find? key <;> rfl
  | succ expansions ih =>
    rw [resolveKeyWithin, resolveKeyWithin, find?_undocumented]
    cases index.find? key with
    | none => rfl
    | some info =>
      simp only [Option.map_some, ih]
      exact congrArg (nameType info) (funext fun _ =>
        resolveExpression_congr (TypeExpression.undocumented_undescribed _))

@[simp] theorem needsIndirection_undocumented (index : TypeIndex) (ref : TypeRef) :
    index.undocumented.needsIndirection ref = index.needsIndirection ref := by
  unfold TypeIndex.needsIndirection
  cases ref.declared? with
  | none => rfl
  | some declared =>
    simp only [find?_undocumented]
    cases index.find? declared.key <;> rfl

theorem expansions_undocumented (index : TypeIndex) :
    index.undocumented.expansions = index.expansions := by
  rw [TypeIndex.expansions, TypeIndex.undocumented, List.length_map]
  rfl

/-- Documentation has no say in what an expression resolves to. -/
theorem resolve_congr {index : TypeIndex} {domain : String} {owner : Option String}
    {expression other : TypeExpression} (same : expression.undocumented = other.undocumented) :
    index.undocumented.resolve domain owner expression = index.resolve domain owner other := by
  have reference : expression.reference? = other.reference? := by
    rw [← TypeExpression.reference?_undocumented, same, TypeExpression.reference?_undocumented]
  simp only [TypeIndex.resolve, TypeIndex.resolveWithin, expansions_undocumented,
    resolveKeyWithin_undocumented, reference]
  exact resolveExpression_congr same

end ProtocolGen.Types
